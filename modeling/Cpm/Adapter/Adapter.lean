import Cpm.Base.ThingModel

/-! The life of an adapter, from `adapter.c`. Every call into the plugin is recorded with
what the plugin returned. -/
namespace Cpm

open Lib

inductive PluginCall where
  | init (rv : Int)
  | setting (config : CStr) (rv : Int)
  | start (rv : Int)
  | stop (rv : Int)
  | thingModelMsgArrived (msg : EsvThingModelMsg) (rv : Int)
  deriving DecidableEq, Repr

/-- The answers of a plugin to the calls of one request. -/
structure PluginReturns where
  init : Int
  setting : CStr → Int
  start : Int
  stop : Int
  thingModelMsgArrived : EsvThingModelMsg → Int

structure NeuAdapter where
  name : CStr
  setting : Option CStr
  state : NeuNodeRunningState
  moduleType : NeuNodeType
  deriving DecidableEq, Repr

/-- An adapter after a request, the calls made on its plugin and the result. -/
structure Served where
  adapter : NeuAdapter
  calls : List PluginCall
  rv : Int
  deriving DecidableEq, Repr

def NEU_ERR_NODE_SETTING_INVALID : Int := 2004
def NEU_ERR_NODE_NOT_READY : Int := 2006
def NEU_ERR_NODE_IS_RUNNING : Int := 2007
def NEU_ERR_NODE_IS_STOPED : Int := 2009

def neuAdapterStart (plugin : PluginReturns) (adapter : NeuAdapter) : Served :=
  match adapter.state with
  | .init => ⟨adapter, [], NEU_ERR_NODE_NOT_READY⟩
  | .running => ⟨adapter, [], NEU_ERR_NODE_IS_RUNNING⟩
  | .ready | .stopped =>
    if plugin.start = 0 then ⟨{ adapter with state := .running }, [.start plugin.start], 0⟩
    else ⟨adapter, [.start plugin.start], plugin.start⟩

def neuAdapterStop (plugin : PluginReturns) (adapter : NeuAdapter) : Served :=
  match adapter.state with
  | .init => ⟨adapter, [], NEU_ERR_NODE_NOT_READY⟩
  | .stopped => ⟨adapter, [], NEU_ERR_NODE_IS_STOPED⟩
  | .ready | .running =>
    if plugin.stop = 0 then ⟨{ adapter with state := .stopped }, [.stop plugin.stop], 0⟩
    else ⟨adapter, [.stop plugin.stop], plugin.stop⟩

/-- The first accepted setting also starts the adapter; the result of that start is dropped. -/
def neuAdapterSetSetting (plugin : PluginReturns) (adapter : NeuAdapter) (setting : CStr) :
    Served :=
  let call := .setting setting (plugin.setting setting)
  if plugin.setting setting = 0 then
    let adapter := { adapter with setting := some setting }
    if adapter.state = .init then
      let started := neuAdapterStart plugin { adapter with state := .ready }
      ⟨started.adapter, call :: started.calls, 0⟩
    else ⟨adapter, [call], 0⟩
  else ⟨adapter, [call], NEU_ERR_NODE_SETTING_INVALID⟩

/-- The loaded configuration replaces the stored one before the plugin has seen it. A
rejected one is dropped; the state is then left as it was. -/
def loadConfig (plugin : PluginReturns) (config : Option CStr) (adapter : NeuAdapter) :
    NeuAdapter × List PluginCall :=
  match config with
  | none => (adapter, [])
  | some text =>
    let call := .setting text (plugin.setting text)
    if plugin.setting text = 0 then
      ({ adapter with setting := some text, state := .ready }, [call])
    else ({ adapter with setting := none }, [call])

def creatable : NeuNodeType → Bool
  | .driver | .ndriver | .app | .esvdevicedriver | .esvapp | .esvselfdevicedriver => true
  | .esvappdriver | .esvdevicedriver232 | .esvappdriver232 | .esvapp232 => false

/-- No adapter comes back when the type is unknown or the plugin's init fails. -/
def neuAdapterCreate (plugin : PluginReturns) (config : Option CStr) (name : CStr)
    (moduleType : NeuNodeType) : Option NeuAdapter × List PluginCall :=
  if creatable moduleType then
    let loaded := loadConfig plugin config ⟨name, none, .init, moduleType⟩
    (if plugin.init = 0 then some loaded.1 else none, .init plugin.init :: loaded.2)
  else (none, [])

end Cpm

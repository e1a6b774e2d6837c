import Cpm.Base.Tag
import Cpm.Lib.Table

/-! A group of tags, from `group.c`. Every change of the tags takes a new reading of the clock. -/
namespace Cpm

open Lib

def NEU_ERR_SUCCESS : Int := 0
def NEU_ERR_EINTERNAL : Int := 1001
def NEU_ERR_TAG_NOT_EXIST : Int := 2201
def NEU_ERR_TAG_NAME_CONFLICT : Int := 2202

structure NeuGroup where
  name : CStr
  tags : Table CStr NeuDatatag
  interval : UInt32
  timestamp : Int

def neuGroupNew (name : CStr) (interval : UInt32) : NeuGroup := ⟨name, .empty, interval, 0⟩

def neuGroupSetName (group : NeuGroup) (name : CStr) : NeuGroup := { group with name }

def neuGroupSetInterval (group : NeuGroup) (interval : UInt32) : NeuGroup := { group with interval }

def neuGroupAddTag (group : NeuGroup) (tag : NeuDatatag) (now : Int) : NeuGroup × Int :=
  if (group.tags.find tag.name).isSome then (group, NEU_ERR_TAG_NAME_CONFLICT)
  else ({ group with tags := group.tags.insert tag.name tag, timestamp := now }, NEU_ERR_SUCCESS)

def neuGroupUpdateTag (group : NeuGroup) (tag : NeuDatatag) (now : Int) : NeuGroup × Int :=
  if (group.tags.find tag.name).isSome then
    ({ group with tags := group.tags.insert tag.name tag, timestamp := now }, NEU_ERR_SUCCESS)
  else (group, NEU_ERR_TAG_NOT_EXIST)

def neuGroupDelTag (group : NeuGroup) (tagName : CStr) (now : Int) : NeuGroup × Int :=
  if (group.tags.find tagName).isSome then
    ({ group with tags := group.tags.erase tagName, timestamp := now }, NEU_ERR_SUCCESS)
  else (group, NEU_ERR_TAG_NOT_EXIST)

def isReadable (tag : NeuDatatag) : Bool :=
  neuTagAttributeTest tag NEU_ATTRIBUTE_READ || neuTagAttributeTest tag NEU_ATTRIBUTE_SUBSCRIBE ||
    neuTagAttributeTest tag NEU_ATTRIBUTE_STATIC

def neuGroupGetReadTag (group : NeuGroup) : List NeuDatatag := group.tags.values.filter isReadable

def neuGroupTagSize (group : NeuGroup) : Nat := group.tags.values.length % 2 ^ 16

def neuGroupFindTag (group : NeuGroup) (tag : CStr) : Option NeuDatatag := group.tags.find tag

/-- The static tags and, of the others, those to be read. -/
def neuGroupSplitStaticTags (group : NeuGroup) : List NeuDatatag × List NeuDatatag :=
  (group.tags.values.filter (neuTagAttributeTest · NEU_ATTRIBUTE_STATIC),
    group.tags.values.filter fun tag => !neuTagAttributeTest tag NEU_ATTRIBUTE_STATIC &&
      (neuTagAttributeTest tag NEU_ATTRIBUTE_SUBSCRIBE || neuTagAttributeTest tag NEU_ATTRIBUTE_READ))

def neuGroupIsChange (group : NeuGroup) (timestamp : Int) : Bool := group.timestamp ≠ timestamp

theorem mem_split {group : NeuGroup} {tag : NeuDatatag} :
    tag ∈ (neuGroupSplitStaticTags group).1 ++ (neuGroupSplitStaticTags group).2 ↔
      tag ∈ neuGroupGetReadTag group := by
  simp only [neuGroupSplitStaticTags, neuGroupGetReadTag, isReadable, List.mem_append,
    List.mem_filter, Bool.and_eq_true, Bool.or_eq_true, Bool.not_eq_true']
  cases neuTagAttributeTest tag NEU_ATTRIBUTE_STATIC <;> simp [or_comm]

end Cpm

import Cpm.Lib.CString
import Mathlib.Data.List.Infix
import Mathlib.Data.List.Nodup
import Mathlib.Tactic.Common

/-! Which key verifies a token: the key store of `neu_jwt.c`. A result `none` is a failed
assertion. -/
namespace Cpm

open Lib

/-- An entry of the directory, in the order of readdir; the content is a text. -/
structure DirEntry where
  name : CStr
  content : CStr
  deriving DecidableEq, Repr

structure StoredKey where
  name : CStr
  key : CStr
  deriving DecidableEq, Repr

structure JwtState where
  keyStore : List StoredKey
  neuronPublicKey : CStr
  deriving DecidableEq, Repr

def certs : CStr := .lit "certs/"

def findKey (keyStore : List StoredKey) (name : CStr) : Option Nat :=
  keyStore.findIdx? fun stored => name.chars <+: stored.name.chars

def addKey (keyStore : List StoredKey) (name value : CStr) : Option (List StoredKey) :=
  if keyStore.length + 1 ≤ 8 then some (keyStore ++ [⟨name.cut 256, value.cut 1023⟩]) else none

/-- The path is cut to its buffer before the file is opened; an empty file fails like a
missing one. -/
def loadKey (dir : List DirEntry) (name : CStr) : Option CStr :=
  match dir.find? fun entry => certs.append entry.name = (certs.append name).cut 255 with
  | none => none
  | some entry => if entry.content = .empty then none else some (entry.content.cut 2047)

def isKeyFile (name : CStr) : Bool :=
  ".pem".toList <:+: name.chars || ".pub".toList <:+: name.chars

def scanfKey (dir : List DirEntry) : Option (List StoredKey) :=
  (dir.filter (isKeyFile ·.name)).foldlM (fun keyStore entry => do
    let content ← loadKey dir entry.name
    addKey keyStore entry.name content) []

/-- The neuron key comes from the configuration directory, the others from `certs`. -/
def neuJwtInit (neuronPem : CStr) (dir : List DirEntry) : Option JwtState := do
  let keyStore ← scanfKey dir
  return ⟨keyStore, neuronPem.cut 2047⟩

structure Jwt where
  iss : Option CStr
  rs256 : Bool
  deriving DecidableEq, Repr

/-- `jwt_decode`: without a key it only parses, with one it verifies the signature. -/
structure Libjwt (Token : Type) where
  decode : Token → Option CStr → Option Jwt

/-- The key of a verification: its place in the store, or none for the neuron key. -/
structure KeyUse where
  slot : Option Nat
  key : CStr
  deriving DecidableEq, Repr

structure Decoding where
  verifiedWith : Option KeyUse
  jwt : Option Jwt
  deriving DecidableEq, Repr

def rejected : Decoding := ⟨none, none⟩

def verify {Token : Type} (lib : Libjwt Token) (token : Token) (use : KeyUse) : Decoding :=
  ⟨some use, (lib.decode token (some use.key)).filter Jwt.rs256⟩

/-- An unknown issuer makes the directory be read again. -/
def neuJwtDecode {Token : Type} (lib : Libjwt Token) (dir : List DirEntry) (st : JwtState)
    (token : Token) : Option (JwtState × Decoding) :=
  match (lib.decode token none).bind Jwt.iss with
  | none => some (st, rejected)
  | some name =>
    match findKey st.keyStore name with
    | some i => some (st, verify lib token ⟨some i, (st.keyStore[i]?.map StoredKey.key).getD .empty⟩)
    | none =>
      if name = .lit "neuron" then some (st, verify lib token ⟨none, st.neuronPublicKey⟩)
      else (scanfKey dir).map fun keyStore => ({ st with keyStore }, rejected)

inductive KeyExtension where
  | pem
  | pub
  deriving DecidableEq, Repr

def KeyExtension.text : KeyExtension → CStr
  | pem => .lit ".pem"
  | pub => .lit ".pub"

structure PublicKeyFile where
  base : CStr
  extension : KeyExtension
  content : CStr
  short : base.strlen + 4 ≤ 255

namespace PublicKeyFile

def name (file : PublicKeyFile) : CStr := file.base.append file.extension.text

def entry (file : PublicKeyFile) : DirEntry := ⟨file.name, file.content⟩

end PublicKeyFile

def keyText (dir : List PublicKeyFile) (file : PublicKeyFile) : Option CStr :=
  (loadKey (dir.map PublicKeyFile.entry) file.name).map (CStr.cut 1023)

/-- The verification of a token with this issuer uses the key of a file with this base name,
else the neuron key for the issuer "neuron", else none. -/
def BoundToIssuer {Token : Type} (neuronPem : CStr) (dir : List PublicKeyFile)
    (lib : Libjwt Token) (token : Token) (issuer : CStr) : Prop :=
  ∃ st after decoding, neuJwtInit neuronPem (dir.map PublicKeyFile.entry) = some st ∧
    neuJwtDecode lib (dir.map PublicKeyFile.entry) st token = some (after, decoding) ∧
    ((∃ file ∈ dir, file.base = issuer) → ∃ i file, dir[i]? = some file ∧ file.base = issuer ∧
      decoding.verifiedWith = some ⟨some i, file.content⟩) ∧
    ((∀ file ∈ dir, file.base ≠ issuer) → issuer = .lit "neuron" →
      decoding.verifiedWith = some ⟨none, neuronPem.cut 2047⟩) ∧
    ((∀ file ∈ dir, file.base ≠ issuer) → issuer ≠ .lit "neuron" → decoding = rejected)

def Loads (dir : List PublicKeyFile) : Prop :=
  dir.length ≤ 8 ∧ ∀ file ∈ dir, (keyText dir file).isSome = true

/-- If the issuer begins the name of any file, the first such file is the issuer's own, and
its text comes through whole. -/
def FirstIsOwn (dir : List PublicKeyFile) (issuer : CStr) : Prop :=
  ∀ (i : Nat) (file : PublicKeyFile), dir[i]? = some file → issuer.chars <+: file.name.chars →
    (∀ (j : Nat) (other : PublicKeyFile), j < i → dir[j]? = some other →
      ¬ issuer.chars <+: other.name.chars) →
      file.base = issuer ∧ keyText dir file = some file.content

def storedKey (dir : List PublicKeyFile) (file : PublicKeyFile) : StoredKey :=
  ⟨file.name, (keyText dir file).getD .empty⟩

theorem name_chars (file : PublicKeyFile) :
    file.name.chars = file.base.chars ++ file.extension.text.chars := rfl

theorem isKeyFile_name (file : PublicKeyFile) : isKeyFile file.name = true := by
  have inside : file.extension.text.chars <:+: file.name.chars :=
    ⟨file.base.chars, [], by rw [name_chars, List.append_nil]⟩
  unfold isKeyFile
  cases kind : file.extension with
  | pem =>
    rw [kind] at inside
    exact Bool.or_eq_true_iff.mpr (.inl (decide_eq_true inside))
  | pub =>
    rw [kind] at inside
    exact Bool.or_eq_true_iff.mpr (.inr (decide_eq_true inside))

theorem name_strlen (file : PublicKeyFile) : file.name.strlen ≤ 256 := by
  have short := file.short
  have extension : file.extension.text.chars.length = 4 := by cases file.extension <;> decide
  simp only [CStr.strlen, name_chars, List.length_append, extension] at short ⊢
  omega

def addFile (dir : List PublicKeyFile) (keyStore : List StoredKey) (file : PublicKeyFile) :
    Option (List StoredKey) :=
  if keyStore.length + 1 ≤ 8 ∧ (keyText dir file).isSome = true then
    some (keyStore ++ [storedKey dir file]) else none

theorem scanfKey_files (dir : List PublicKeyFile) :
    scanfKey (dir.map PublicKeyFile.entry) = dir.foldlM (addFile dir) [] := by
  have kept : (dir.map PublicKeyFile.entry).filter (isKeyFile ·.name) =
      dir.map PublicKeyFile.entry := by
    apply List.filter_eq_self.mpr
    intro entry inside
    obtain ⟨file, -, rfl⟩ := List.mem_map.mp inside
    exact isKeyFile_name file
  rw [scanfKey, kept, List.foldlM_map]
  congr 1
  funext keyStore file
  have whole : file.name.cut 256 = file.name := CStr.cut_self (name_strlen file)
  change (loadKey (dir.map PublicKeyFile.entry) file.name >>= addKey keyStore file.name) = _
  cases loaded : loadKey (dir.map PublicKeyFile.entry) file.name with
  | none => simp [addFile, keyText, loaded]
  | some content =>
    by_cases room : keyStore.length + 1 ≤ 8
    · simp [addFile, addKey, keyText, storedKey, loaded, room, whole]
    · simp [addFile, addKey, room]

theorem addFile_all (dir files : List PublicKeyFile) (keyStore : List StoredKey)
    (loaded : ∀ file ∈ files, (keyText dir file).isSome = true)
    (room : keyStore.length + files.length ≤ 8) :
    files.foldlM (addFile dir) keyStore = some (keyStore ++ files.map (storedKey dir)) := by
  induction files generalizing keyStore with
  | nil => simp
  | cons file files ih =>
    rw [List.length_cons] at room
    have first : addFile dir keyStore file = some (keyStore ++ [storedKey dir file]) :=
      if_pos ⟨by omega, loaded file List.mem_cons_self⟩
    have rest := ih (keyStore ++ [storedKey dir file])
      (fun other inside => loaded other (List.mem_cons_of_mem _ inside))
      (by rw [List.length_append, List.length_singleton]; omega)
    rw [List.foldlM_cons, first]
    simpa using rest

theorem addFile_loaded {dir files : List PublicKeyFile} {keyStore after : List StoredKey}
    (added : files.foldlM (addFile dir) keyStore = some after) :
    (∀ file ∈ files, (keyText dir file).isSome = true) ∧
      (files ≠ [] → keyStore.length + files.length ≤ 8) := by
  induction files generalizing keyStore with
  | nil => simp
  | cons file files ih =>
    rw [List.foldlM_cons] at added
    obtain ⟨next, first, rest⟩ := Option.bind_eq_some_iff.mp added
    unfold addFile at first
    split at first
    · next both =>
      obtain rfl := Option.some.inj first
      have later := ih rest
      rw [List.length_append, List.length_singleton] at later
      constructor
      · exact List.forall_mem_cons.mpr ⟨both.2, later.1⟩
      · intro _
        by_cases last : files = []
        · subst last
          exact both.1
        · have bound := later.2 last
          rw [List.length_cons]
          omega
    · cases first

theorem scanfKey_loads (dir : List PublicKeyFile) (keyStore : List StoredKey) :
    scanfKey (dir.map PublicKeyFile.entry) = some keyStore ↔
      Loads dir ∧ keyStore = dir.map (storedKey dir) := by
  rw [scanfKey_files]
  constructor
  · intro scanned
    obtain ⟨loaded, room⟩ := addFile_loaded scanned
    have bound : dir.length ≤ 8 := by
      by_cases none : dir = []
      · simp [none]
      · simpa using room none
    have all := addFile_all dir dir [] loaded (by simpa using bound)
    rw [scanned] at all
    exact ⟨⟨bound, loaded⟩, by simpa using all⟩
  · rintro ⟨⟨bound, loaded⟩, rfl⟩
    simpa using addFile_all dir dir [] loaded (by simpa using bound)

theorem findKey_stored (dir : List PublicKeyFile) (issuer : CStr) :
    findKey (dir.map (storedKey dir)) issuer =
      dir.findIdx? fun file => issuer.chars <+: file.name.chars := by
  rw [findKey, List.findIdx?_map]
  rfl

theorem base_begins (file : PublicKeyFile) : file.base.chars <+: file.name.chars :=
  ⟨file.extension.text.chars, (name_chars file).symm⟩

theorem unmatched_base {dir : List PublicKeyFile} {issuer : CStr}
    (unmatched : (dir.findIdx? fun file => issuer.chars <+: file.name.chars) = none) :
    ∀ file ∈ dir, ¬ issuer.chars <+: file.name.chars ∧ file.base ≠ issuer := by
  intro file inside
  have apart : ¬ issuer.chars <+: file.name.chars := by
    simpa using List.findIdx?_eq_none_iff.mp unmatched file inside
  refine ⟨apart, ?_⟩
  rintro rfl
  exact apart (base_begins file)

theorem firstIsOwn_at {dir : List PublicKeyFile} {issuer : CStr} {i : Nat} {file : PublicKeyFile}
    (here : dir[i]? = some file) (begins : issuer.chars <+: file.name.chars)
    (before : ∀ (j : Nat) (inside : j < dir.length), j < i →
      ¬ issuer.chars <+: dir[j].name.chars) :
    FirstIsOwn dir issuer ↔ file.base = issuer ∧ keyText dir file = some file.content := by
  constructor
  · intro own
    refine own i file here begins fun j other earlier there => ?_
    obtain ⟨inside, rfl⟩ := List.getElem?_eq_some_iff.mp there
    exact before j inside earlier
  · intro own j other there begins' before'
    rcases Nat.lt_trichotomy j i with earlier | rfl | later
    · obtain ⟨inside, rfl⟩ := List.getElem?_eq_some_iff.mp there
      exact absurd begins' (before j inside earlier)
    · obtain rfl := Option.some.inj (here.symm.trans there)
      exact own
    · exact absurd begins (before' i file later here)

section Decode

variable {Token : Type} {neuronPem : CStr} {dir : List PublicKeyFile} {lib : Libjwt Token}
  {token : Token} {issuer : CStr}

theorem decode_unmatched (loads : Loads dir)
    (names : (lib.decode token none).bind Jwt.iss = some issuer)
    (unmatched : (dir.findIdx? fun file => issuer.chars <+: file.name.chars) = none) :
    neuJwtDecode lib (dir.map PublicKeyFile.entry)
        ⟨dir.map (storedKey dir), neuronPem.cut 2047⟩ token =
      some (⟨dir.map (storedKey dir), neuronPem.cut 2047⟩,
        if issuer = .lit "neuron" then verify lib token ⟨none, neuronPem.cut 2047⟩
        else rejected) := by
  have again := (scanfKey_loads dir _).mpr ⟨loads, rfl⟩
  unfold neuJwtDecode
  simp only [names, findKey_stored, unmatched]
  split
  · rfl
  · rw [again]
    rfl

theorem decode_matched (names : (lib.decode token none).bind Jwt.iss = some issuer) {i : Nat}
    {file : PublicKeyFile} (here : dir[i]? = some file)
    (first : (dir.findIdx? fun file => issuer.chars <+: file.name.chars) = some i) :
    neuJwtDecode lib (dir.map PublicKeyFile.entry)
        ⟨dir.map (storedKey dir), neuronPem.cut 2047⟩ token =
      some (⟨dir.map (storedKey dir), neuronPem.cut 2047⟩,
        verify lib token ⟨some i, (keyText dir file).getD .empty⟩) := by
  unfold neuJwtDecode
  simp only [names, findKey_stored, first, List.getElem?_map, here, Option.map_some,
    Option.getD_some, storedKey]

theorem init_loads (st : JwtState) :
    neuJwtInit neuronPem (dir.map PublicKeyFile.entry) = some st ↔
      Loads dir ∧ st = ⟨dir.map (storedKey dir), neuronPem.cut 2047⟩ := by
  constructor
  · intro started
    obtain ⟨keyStore, scanned, rest⟩ := Option.bind_eq_some_iff.mp started
    obtain ⟨loads, rfl⟩ := (scanfKey_loads dir keyStore).mp scanned
    exact ⟨loads, (Option.some.inj rest).symm⟩
  · rintro ⟨loads, rfl⟩
    rw [neuJwtInit, (scanfKey_loads dir _).mpr ⟨loads, rfl⟩]
    rfl

theorem bound_unmatched (names : (lib.decode token none).bind Jwt.iss = some issuer)
    (found : (dir.findIdx? fun file => issuer.chars <+: file.name.chars) = none) :
    BoundToIssuer neuronPem dir lib token issuer ↔ Loads dir ∧ FirstIsOwn dir issuer := by
  unfold BoundToIssuer
  simp only [init_loads]
  have absent := unmatched_base found
  constructor
  · rintro ⟨-, -, -, ⟨loads, -⟩, -⟩
    refine ⟨loads, ?_⟩
    intro i file here begins
    exact absurd begins (absent file (List.mem_of_getElem? here)).1
  · rintro ⟨loads, -⟩
    refine ⟨_, _, _, ⟨loads, rfl⟩, decode_unmatched loads names found, ?_, ?_, ?_⟩
    · rintro ⟨file, inside, own⟩
      exact absurd own (absent file inside).2
    · intro _ neuron
      simp [neuron, verify]
    · intro _ other
      simp [other]

theorem bound_matched (names : (lib.decode token none).bind Jwt.iss = some issuer) {i : Nat}
    (found : (dir.findIdx? fun file => issuer.chars <+: file.name.chars) = some i) :
    BoundToIssuer neuronPem dir lib token issuer ↔ Loads dir ∧ FirstIsOwn dir issuer := by
  unfold BoundToIssuer
  simp only [init_loads]
  obtain ⟨bound, begins, before⟩ := List.findIdx?_eq_some_iff_getElem.mp found
  have here : dir[i]? = some dir[i] := List.getElem?_eq_getElem bound
  rw [firstIsOwn_at here (of_decide_eq_true begins) fun j inside earlier => by
    simpa using before j earlier]
  constructor
  · rintro ⟨-, after, decoding, ⟨loads, rfl⟩, ran, own, neuron, other⟩
    rw [decode_matched names here found] at ran
    cases ran
    refine ⟨loads, ?_⟩
    by_cases present : ∃ file ∈ dir, file.base = issuer
    · obtain ⟨j, file, there, same, used⟩ := own present
      simp only [verify, Option.some.injEq, KeyUse.mk.injEq] at used
      obtain ⟨rfl, text⟩ := used
      obtain rfl := Option.some.inj (here.symm.trans there)
      obtain ⟨kept, stored⟩ :=
        Option.isSome_iff_exists.mp (loads.2 dir[i] (List.getElem_mem bound))
      rw [stored] at text ⊢
      exact ⟨same, congrArg some text⟩
    · have absent : ∀ file ∈ dir, file.base ≠ issuer := by simpa using present
      by_cases named : issuer = .lit "neuron"
      · have used := neuron absent named
        cases used
      · have refused := other absent named
        cases refused
  · rintro ⟨loads, same, stored⟩
    refine ⟨_, _, _, ⟨loads, rfl⟩, decode_matched names here found, ?_, ?_, ?_⟩
    · intro _
      exact ⟨i, dir[i], here, same, by rw [stored]; rfl⟩
    · intro absent
      exact absurd same (absent dir[i] (List.getElem_mem bound))
    · intro absent
      exact absurd same (absent dir[i] (List.getElem_mem bound))

/-- A token is verified with the key of its issuer exactly if the directory loads and the
first file whose name the issuer begins, if there is one, is the issuer's own. -/
theorem boundToIssuer_iff (neuronPem : CStr) (dir : List PublicKeyFile) (lib : Libjwt Token)
    (token : Token) (issuer : CStr)
    (names : (lib.decode token none).bind Jwt.iss = some issuer) :
    BoundToIssuer neuronPem dir lib token issuer ↔ Loads dir ∧ FirstIsOwn dir issuer := by
  cases found : dir.findIdx? fun file => issuer.chars <+: file.name.chars with
  | none => exact bound_unmatched names found
  | some i => exact bound_matched names found

end Decode

def keyFile (base content : String) (short : (CStr.lit base).strlen + 4 ≤ 255) : PublicKeyFile :=
  ⟨.lit base, .pub, .lit content, short⟩

/-- A library that takes every token for one of this issuer, whatever the key. -/
def issuedBy (issuer : String) : Libjwt Unit := ⟨fun _ _ => some ⟨some (.lit issuer), true⟩⟩

theorem boundToIssuer_neuron :
    BoundToIssuer (.lit "neuron key") [keyFile "hub" "hub key" (by decide)] (issuedBy "neuron") ()
        (.lit "neuron") ↔
      Loads [keyFile "hub" "hub key" (by decide)] ∧
        FirstIsOwn [keyFile "hub" "hub key" (by decide)] (.lit "neuron") :=
  boundToIssuer_iff (.lit "neuron key") [keyFile "hub" "hub key" (by decide)] (issuedBy "neuron") ()
    (.lit "neuron") rfl

/-- A file whose name merely begins with the issuer takes the place of the neuron key. -/
theorem neuron_key_shadowed :
    ¬ BoundToIssuer (.lit "neuron key") [keyFile "neuron2" "other key" (by decide)]
      (issuedBy "neuron") () (.lit "neuron") := by
  rintro ⟨st, after, decoding, started, ran, -, builtin, -⟩
  obtain ⟨-, rfl⟩ := init_loads st |>.mp started
  have here : [keyFile "neuron2" "other key" (by decide)][0]? =
    some (keyFile "neuron2" "other key" (by decide)) := rfl
  rw [decode_matched rfl here (by decide +kernel)] at ran
  cases ran
  have used := builtin (by decide) rfl
  cases used

end Cpm

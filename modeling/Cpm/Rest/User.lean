import Cpm.Base.Group
import Cpm.Lib.Numerals
import Cpm.Lib.Run
import Cpm.Lib.Sextets
import Cpm.Lib.Sha2
import Mathlib.Algebra.GroupWithZero.Nat
import Mathlib.Algebra.Order.Ring.Nat
import Mathlib.Data.Nat.Digits.Defs

/-! The users of `user.c` and the hashes of their passwords. OpenSSL's digests are a parameter. -/
namespace Cpm

open Lib

structure EvpMd where
  digest : List UInt8 → List UInt8
  size : ℕ
  length_digest : ∀ bytes, (digest bytes).length = size

structure EvpDigests where
  sha256 : EvpMd
  sha512 : EvpMd
  size256 : sha256.size = 32
  size512 : sha512.size = 64

def SALT_LEN_MAX : ℕ := 16
def ROUNDS_DEFAULT : ℕ := 5000
def ROUNDS_MIN : ℕ := 1000
def ROUNDS_MAX : ℕ := 999999999

def cov2char (i : ℕ) : Char :=
  "./0123456789ABCDEFGHIJKLMNOPQRSTUVWXYZabcdefghijklmnopqrstuvwxyz".toList.getD i '.'

def group (b2 b1 b0 chars : ℕ) : Sextets.Group := ⟨some b2, some b1, b0, chars⟩

/-- The arguments of `b64_from_24bit` for a digest of 32 bytes. -/
def groups256 : List Sextets.Group :=
  [group 0 10 20 4, group 21 1 11 4, group 12 22 2 4, group 3 13 23 4, group 24 4 14 4,
    group 15 25 5 4, group 6 16 26 4, group 27 7 17 4, group 18 28 8 4, group 9 19 29 4,
    ⟨none, some 31, 30, 3⟩]

/-- The same for a digest of 64 bytes. -/
def groups512 : List Sextets.Group :=
  [group 0 21 42 4, group 22 43 1 4, group 44 2 23 4, group 3 24 45 4, group 25 46 4 4,
    group 47 5 26 4, group 6 27 48 4, group 28 49 7 4, group 50 8 29 4, group 9 30 51 4,
    group 31 52 10 4, group 53 11 32 4, group 12 33 54 4, group 34 55 13 4, group 56 14 35 4,
    group 15 36 57 4, group 37 58 16 4, group 59 17 38 4, group 18 39 60 4, group 40 61 19 4,
    group 62 20 41 4, ⟨none, none, 63, 2⟩]

def bytesOf (s : List Char) : List UInt8 := s.map fun c => .ofNat c.toNat

/-- Copies of a buffer up to a length, the last one cut. -/
def refilled (buf : List UInt8) (n : ℕ) : List UInt8 :=
  if buf.length < n ∧ 0 < buf.length then buf ++ refilled buf (n - buf.length) else buf.take n
termination_by n
decreasing_by omega

/-- The buffer or the password for each bit of the length, the lowest bit first. -/
def byBits (buf passwd : List UInt8) (n : ℕ) : List UInt8 :=
  if n = 0 then []
  else (if n % 2 = 1 then buf else passwd) ++ byBits buf passwd (n / 2)
termination_by n
decreasing_by omega

def roundInput (p s buf : List UInt8) (n : ℕ) : List UInt8 :=
  (if n % 2 = 1 then p else buf) ++ (if n % 3 ≠ 0 then s else []) ++
    (if n % 7 ≠ 0 then p else []) ++ (if n % 2 = 1 then buf else p)

def shaDigest (sha : EvpMd) (passwd salt : List UInt8) (rounds : ℕ) : List UInt8 :=
  let alternate := sha.digest (passwd ++ salt ++ passwd)
  let buf := sha.digest (passwd ++ salt ++ refilled alternate passwd.length ++
    byBits alternate passwd passwd.length)
  let p := refilled (sha.digest (List.replicate passwd.length passwd).flatten) passwd.length
  let s := refilled (sha.digest (List.replicate (16 + (buf.getD 0 0).toNat) salt).flatten) salt.length
  (List.range rounds).foldl (fun buf n => sha.digest (roundInput p s buf n)) buf

def roundsPrefix : List Char := "rounds=".toList

def clampRounds (srounds : ℕ) : ℕ :=
  if srounds > ROUNDS_MAX then ROUNDS_MAX
  else if srounds < ROUNDS_MIN then ROUNDS_MIN
  else srounds

/-- The salt behind an optional number of rounds, which a dollar must close. -/
def saltRounds (salt : List Char) : Option (List Char × Option ℕ) :=
  if roundsPrefix.isPrefixOf salt then
    let num := salt.drop roundsPrefix.length
    let read := CStr.strtoumax num
    match num.drop read.stop with
    | '$' :: rest => some (rest, some (clampRounds read.value))
    | _ => none
  else some (salt, none)

def roundsText : Option ℕ → List Char
  | none => []
  | some n => roundsPrefix ++ Nat.toDigits 10 n ++ ['$']

def magicDigest (evp : EvpDigests) : List Char → Option (EvpMd × List Sextets.Group)
  | ['5'] => some (evp.sha256, groups256)
  | ['6'] => some (evp.sha512, groups512)
  | _ => none

/-- `$magic$rounds=N$salt$characters`, as it stands in the output buffer. -/
def hashText (magic : List Char) (custom : Option ℕ) (asciiSalt encoded : List Char) : List Char :=
  ['$'] ++ magic ++ ['$'] ++ (roundsText custom ++ (asciiSalt ++ ('$' :: encoded)))

/-- `shacrypt`. The digest functions of OpenSSL do not fail here; its allocator fails for an empty
buffer, so an empty password and an empty salt give NULL. -/
def shacrypt (evp : EvpDigests) (passwd magic salt : List Char) : Option (List Char) :=
  match magicDigest evp magic, saltRounds salt with
  | some (sha, groups), some (salt, custom) =>
    let asciiSalt := salt.take SALT_LEN_MAX
    let longest := 3 + (if custom.isSome then 17 else 0) + asciiSalt.length
    if 3 + (roundsText custom).length + asciiSalt.length > longest then none
    else if passwd = [] ∨ asciiSalt = [] then none
    else
      some (hashText magic custom asciiSalt (Sextets.encode cov2char groups
        (shaDigest sha (bytesOf passwd) (bytesOf asciiSalt) (custom.getD ROUNDS_DEFAULT))))
  | _, _ => none

def randomSalt (random : List UInt8) : List Char := random.map fun b => cov2char (b.toNat &&& 63)

def hashPassword (evp : EvpDigests) (passwd salt : List Char) : Option (List Char) :=
  shacrypt evp passwd ['5'] salt

structure NeuUser where
  name : List Char
  hash : List Char
  deriving DecidableEq, Repr

/-- `neu_user_new` with the random bytes it drew. -/
def neuUserNew (evp : EvpDigests) (name password : List Char) (random : List UInt8) :
    Option NeuUser :=
  (hashPassword evp password (randomSalt random)).map fun hash => ⟨name, hash⟩

def NEU_ERR_DUPLICATE_PASSWORD : Int := 1013

/-- `neu_user_update_password`. The salt is what stands behind `$5$` in the old hash. -/
def neuUserUpdatePassword (evp : EvpDigests) (user : NeuUser) (newPassword : List Char) :
    NeuUser × Int :=
  match hashPassword evp newPassword (user.hash.drop 3) with
  | none => (user, NEU_ERR_EINTERNAL)
  | some hash =>
    if user.hash = hash then (user, NEU_ERR_DUPLICATE_PASSWORD) else ({ user with hash }, 0)

/-- The comparison of the hashes is commented out. -/
def neuUserCheckPassword (_ : NeuUser) (_ : List Char) : Bool := true

/-- No user is loaded: every name has the same text for a hash. -/
def neuLoadUser (name : List Char) : NeuUser := ⟨name, "password".toList⟩

def neuSaveUser (_ : NeuUser) : Int := 0

theorem cov2char_distinct : Sextets.Distinct cov2char := by
  unfold Sextets.Distinct
  decide +kernel

theorem groups256_covers : Sextets.Covers groups256 32 := by decide

theorem groups512_covers : Sextets.Covers groups512 64 := by decide

theorem digits_ofDigitChars {numeral : List Char} (plain : ∀ c ∈ numeral, c.isDigit = true)
    (acc : ℕ) : CStr.digits acc numeral = Nat.ofDigitChars 10 numeral acc := by
  induction numeral generalizing acc with
  | nil => rfl
  | cons c rest ih =>
    obtain ⟨digit, others⟩ := List.forall_mem_cons.1 plain
    rw [CStr.digits, if_pos digit, ih others, Nat.ofDigitChars_cons]

theorem strtoumax_toDigits {n : ℕ} (small : n < 2 ^ 64) (rest : List Char)
    (other : rest.head?.any Char.isDigit = false) :
    CStr.strtoumax (Nat.toDigits 10 n ++ rest) = ⟨n, (Nat.toDigits 10 n).length, false⟩ := by
  have plain : ∀ c ∈ Nat.toDigits 10 n, c.isDigit = true :=
    fun c inside => Nat.isDigit_of_mem_toDigits (by decide) (by decide) inside
  apply (CStr.strtoumax_iff Nat.toDigits_ne_nil other n).2
  apply (CStr.spelling_digits plain n).2
  refine ⟨⟨Nat.toDigits_ne_nil, plain, ?_⟩, ?_⟩
  · rw [digits_ofDigitChars plain, Nat.ofDigitChars_ten_toDigits]
  · rw [CStr.uintmaxMax]
    omega

theorem clampRounds_range (n : ℕ) : ROUNDS_MIN ≤ clampRounds n ∧ clampRounds n ≤ ROUNDS_MAX := by
  unfold clampRounds ROUNDS_MIN ROUNDS_MAX
  split_ifs <;> omega

theorem clampRounds_self {n : ℕ} (low : ROUNDS_MIN ≤ n) (high : n ≤ ROUNDS_MAX) :
    clampRounds n = n := by
  unfold clampRounds
  split_ifs <;> omega

/-- What the reading of a salt leaves: a number of rounds in range, or a salt without one. -/
def GoodRounds (rest : List Char) : Option ℕ → Prop
  | none => ¬ roundsPrefix <+: rest
  | some n => ROUNDS_MIN ≤ n ∧ n ≤ ROUNDS_MAX

theorem saltRounds_good {salt rest : List Char} {custom : Option ℕ}
    (read : saltRounds salt = some (rest, custom)) : GoodRounds rest custom := by
  unfold saltRounds at read
  split at read
  · dsimp only at read
    split at read
    · cases read
      exact clampRounds_range _
    · cases read
  · next plain =>
    cases read
    simpa [GoodRounds] using plain

/-- The text in front of a salt is read back, and the salt stays behind it. -/
theorem saltRounds_again {rest : List Char} {custom : Option ℕ}
    (good : GoodRounds rest custom) (long : roundsPrefix.length ≤ rest.length)
    (behind : List Char) :
    saltRounds (roundsText custom ++ (rest ++ behind)) = some (rest ++ behind, custom) := by
  cases custom with
  | none =>
    have apart : ¬ roundsPrefix <+: rest ++ behind := by
      intro front
      exact good (List.prefix_of_prefix_length_le front (List.prefix_append rest behind) long)
    rw [roundsText, List.nil_append, saltRounds, if_neg (by simpa using apart)]
  | some n =>
    have small : n < 2 ^ 64 := lt_of_le_of_lt good.2 (by decide)
    have front : roundsPrefix.isPrefixOf (roundsText (some n) ++ (rest ++ behind)) = true := by
      simp [roundsText]
    have num : (roundsText (some n) ++ (rest ++ behind)).drop roundsPrefix.length =
        Nat.toDigits 10 n ++ ('$' :: (rest ++ behind)) := by
      rw [roundsText, List.append_assoc, List.append_assoc, List.drop_left]
      simp
    have read := strtoumax_toDigits small ('$' :: (rest ++ behind)) rfl
    simp only [saltRounds, front, if_true, num, read, List.drop_left,
      clampRounds_self good.1 good.2]

/-- The rounds take at most the room that the check allows. -/
theorem roundsText_short {rest : List Char} {custom : Option ℕ} (good : GoodRounds rest custom) :
    (roundsText custom).length ≤ if custom.isSome then 17 else 0 := by
  cases custom with
  | none => simp [roundsText]
  | some n =>
    have digits : (Nat.toDigits 10 n).length ≤ 9 :=
      Nat.toDigits_length 10 n 9 (by decide) (lt_of_le_of_lt good.2 (by decide))
    have front : roundsPrefix.length = 7 := by decide
    simp only [roundsText, List.length_append, List.length_singleton, front, Option.isSome_some,
      if_true]
    omega

theorem shaDigest_length (sha : EvpMd) (passwd salt : List UInt8) (rounds : ℕ) :
    (shaDigest sha passwd salt rounds).length = sha.size := by
  have fold : ∀ (p s buf : List UInt8) (ns : List ℕ), buf.length = sha.size →
      (ns.foldl (fun buf n => sha.digest (roundInput p s buf n)) buf).length = sha.size := by
    intro p s buf ns whole
    induction ns generalizing buf with
    | nil => exact whole
    | cons n rest ih => exact ih _ (sha.length_digest _)
  exact fold _ _ _ _ (sha.length_digest _)

section
variable {evp : EvpDigests} {sha : EvpMd} {groups : List Sextets.Group}
variable {passwd magic salt rest : List Char} {custom : Option ℕ}

def encoded (sha : EvpMd) (groups : List Sextets.Group) (passwd asciiSalt : List Char)
    (custom : Option ℕ) : List Char :=
  Sextets.encode cov2char groups
    (shaDigest sha (bytesOf passwd) (bytesOf asciiSalt) (custom.getD ROUNDS_DEFAULT))

theorem shacrypt_text (md : magicDigest evp magic = some (sha, groups))
    (read : saltRounds salt = some (rest, custom)) (named : passwd ≠ [])
    (salted : rest.take SALT_LEN_MAX ≠ []) :
    shacrypt evp passwd magic salt =
      some (hashText magic custom (rest.take SALT_LEN_MAX)
        (encoded sha groups passwd (rest.take SALT_LEN_MAX) custom)) := by
  have short := roundsText_short (saltRounds_good read)
  have room : ¬ 3 + (roundsText custom).length + (rest.take SALT_LEN_MAX).length >
      3 + (if custom.isSome then 17 else 0) + (rest.take SALT_LEN_MAX).length := by omega
  have both : ¬ (passwd = [] ∨ rest.take SALT_LEN_MAX = []) := not_or.2 ⟨named, salted⟩
  simp only [shacrypt, md, read, if_neg room, if_neg both]
  rfl

theorem magicDigest_cases (md : magicDigest evp magic = some (sha, groups)) :
    (magic = ['5'] ∧ sha.size = 32 ∧ groups = groups256) ∨
      (magic = ['6'] ∧ sha.size = 64 ∧ groups = groups512) := by
  unfold magicDigest at md
  split at md
  · cases md
    exact .inl ⟨rfl, evp.size256, rfl⟩
  · cases md
    exact .inr ⟨rfl, evp.size512, rfl⟩
  · cases md

theorem encoded_injective (md : magicDigest evp magic = some (sha, groups))
    {other asciiSalt : List Char} :
    encoded sha groups other asciiSalt custom = encoded sha groups passwd asciiSalt custom ↔
      shaDigest sha (bytesOf other) (bytesOf asciiSalt) (custom.getD ROUNDS_DEFAULT) =
        shaDigest sha (bytesOf passwd) (bytesOf asciiSalt) (custom.getD ROUNDS_DEFAULT) := by
  refine ⟨fun same => ?_, fun same => congrArg (Sextets.encode cov2char groups) same⟩
  obtain ⟨-, size, rfl⟩ | ⟨-, size, rfl⟩ := magicDigest_cases md
  · exact Sextets.encode_injective cov2char_distinct groups256_covers
      ((shaDigest_length ..).trans size) ((shaDigest_length ..).trans size) same
  · exact Sextets.encode_injective cov2char_distinct groups512_covers
      ((shaDigest_length ..).trans size) ((shaDigest_length ..).trans size) same

/-- The text behind `$5$` or `$6$` is read as the salt it was made with. -/
theorem shacrypt_again (md : magicDigest evp magic = some (sha, groups))
    (good : GoodRounds rest custom) (full : rest.length = SALT_LEN_MAX) (encodedText : List Char)
    {attempt : List Char} (named : attempt ≠ []) :
    shacrypt evp attempt magic ((hashText magic custom rest encodedText).drop 3) =
      some (hashText magic custom rest (encoded sha groups attempt rest custom)) := by
  have behind : (hashText magic custom rest encodedText).drop 3 =
      roundsText custom ++ (rest ++ ('$' :: encodedText)) := by
    obtain ⟨rfl, -⟩ | ⟨rfl, -⟩ := magicDigest_cases md <;> rfl
  have long : roundsPrefix.length ≤ rest.length := by
    rw [full]
    decide
  have again := saltRounds_again good long ('$' :: encodedText)
  have cut : (rest ++ ('$' :: encodedText)).take SALT_LEN_MAX = rest := by
    rw [← full, List.take_left]
  have salted : (rest ++ ('$' :: encodedText)).take SALT_LEN_MAX ≠ [] := by
    rw [cut]
    rintro rfl
    cases full
  rw [behind, shacrypt_text md again named salted, cut]

theorem hashText_injective {encodedText other : List Char} :
    hashText magic custom rest other = hashText magic custom rest encodedText ↔
      other = encodedText := by
  simp [hashText]

theorem good_take (good : GoodRounds rest custom) :
    GoodRounds (rest.take SALT_LEN_MAX) custom := by
  cases custom with
  | none => exact fun front => good (front.trans (List.take_prefix _ _))
  | some n => exact good

theorem hashText_length (md : magicDigest evp magic = some (sha, groups))
    (good : GoodRounds rest custom) (short : rest.length ≤ SALT_LEN_MAX) :
    (hashText magic custom rest (encoded sha groups passwd rest custom)).length + 1 ≤
      3 + 17 + 17 + 86 + 1 := by
  have rounds := roundsText_short good
  have sixteen : rest.length ≤ 16 := short
  have bound : (roundsText custom).length ≤ 17 := by
    refine rounds.trans ?_
    split <;> omega
  obtain ⟨rfl, -, rfl⟩ | ⟨rfl, -, rfl⟩ := magicDigest_cases md
  · have chars : (groups256.map Sextets.Group.chars).sum = 43 := by decide
    simp only [hashText, encoded, List.length_append, List.length_cons, List.length_nil,
      Sextets.length_encode, chars]
    omega
  · have chars : (groups512.map Sextets.Group.chars).sum = 86 := by decide
    simp only [hashText, encoded, List.length_append, List.length_cons, List.length_nil,
      Sextets.length_encode, chars]
    omega

/-- With a salt of sixteen characters and any number of rounds the hash fits its buffer, and
hashing an attempt with the salt read back from the hash gives the same hash exactly if the
digests are equal. -/
theorem shacrypt_verifies (evp : EvpDigests) (passwd magic salt : List Char) (sha : EvpMd)
    (groups : List Sextets.Group) (rest : List Char) (custom : Option ℕ)
    (md : magicDigest evp magic = some (sha, groups))
    (read : saltRounds salt = some (rest, custom)) (full : SALT_LEN_MAX ≤ rest.length)
    (named : passwd ≠ []) :
    ∃ hash, shacrypt evp passwd magic salt = some hash ∧
      hash.length + 1 ≤ 3 + 17 + 17 + 86 + 1 ∧
      ∀ attempt, attempt ≠ [] → ∃ again, shacrypt evp attempt magic (hash.drop 3) = some again ∧
        (again = hash ↔
          shaDigest sha (bytesOf attempt) (bytesOf (rest.take SALT_LEN_MAX))
              (custom.getD ROUNDS_DEFAULT) =
            shaDigest sha (bytesOf passwd) (bytesOf (rest.take SALT_LEN_MAX))
              (custom.getD ROUNDS_DEFAULT)) := by
  have whole : (rest.take SALT_LEN_MAX).length = SALT_LEN_MAX := List.length_take_of_le full
  have salted : rest.take SALT_LEN_MAX ≠ [] := by
    intro empty
    rw [empty] at whole
    cases whole
  have good := good_take (saltRounds_good read)
  refine ⟨_, shacrypt_text md read named salted, hashText_length md good whole.le,
    fun attempt tried => ⟨_, shacrypt_again md good whole _ tried, ?_⟩⟩
  rw [hashText_injective, encoded_injective md]

end

def evpMd (v : Sha2.Variant) : EvpMd := ⟨Sha2.digest v, 8 * (v.width / 8), Sha2.length_digest v⟩

def evpDigests : EvpDigests := ⟨evpMd Sha2.sha256, evpMd Sha2.sha512, rfl, rfl⟩

theorem shacrypt_verifies_custom :
    ∃ hash, shacrypt evpDigests "0000".toList ['6'] "rounds=1000$0123456789abcdef".toList =
        some hash ∧
      hash.length + 1 ≤ 3 + 17 + 17 + 86 + 1 ∧
      ∀ attempt, attempt ≠ [] → ∃ again, shacrypt evpDigests attempt ['6'] (hash.drop 3) =
          some again ∧
        (again = hash ↔
          shaDigest evpDigests.sha512 (bytesOf attempt)
              (bytesOf ("0123456789abcdef".toList.take SALT_LEN_MAX))
              ((some 1000).getD ROUNDS_DEFAULT) =
            shaDigest evpDigests.sha512 (bytesOf "0000".toList)
              (bytesOf ("0123456789abcdef".toList.take SALT_LEN_MAX))
              ((some 1000).getD ROUNDS_DEFAULT)) :=
  shacrypt_verifies evpDigests _ _ _ _ groups512 _ _ rfl (by decide +kernel) (by decide) (by decide)

/- A user over the changes of the password. -/

def saltedDigest (evp : EvpDigests) (salt passwd : List Char) : List UInt8 :=
  shaDigest evp.sha256 (bytesOf passwd) (bytesOf salt) ROUNDS_DEFAULT

def passwordStep (evp : EvpDigests) (salt passwd newPassword : List Char) :
    Option (List Char × Int) :=
  if newPassword = [] then some (passwd, NEU_ERR_EINTERNAL)
  else if saltedDigest evp salt newPassword = saltedDigest evp salt passwd then
    some (passwd, NEU_ERR_DUPLICATE_PASSWORD)
  else some (newPassword, 0)

def userStep (evp : EvpDigests) (user : NeuUser) (newPassword : List Char) :
    Option (NeuUser × Int) := some (neuUserUpdatePassword evp user newPassword)

/-- The hash of the user is the one of a password under the first salt. -/
structure HoldsPassword (evp : EvpDigests) (name salt : List Char) (user : NeuUser)
    (passwd : List Char) : Prop where
  name : user.name = name
  hash : user.hash = hashText ['5'] none salt (encoded evp.sha256 groups256 passwd salt none)

theorem cov2char_plain : ∀ i < 64, cov2char i ≠ '=' := by decide +kernel

theorem randomSalt_good (random : List UInt8) : GoodRounds (randomSalt random) none := by
  intro front
  have sign : '=' ∈ roundsPrefix := by decide
  obtain ⟨b, -, same⟩ := List.mem_map.1 (front.subset sign)
  have small : b.toNat &&& 63 < 64 := by
    rw [Nat.and_two_pow_sub_one_eq_mod b.toNat 6]
    exact Nat.mod_lt _ (by decide)
  exact cov2char_plain _ small same

theorem shacrypt_empty (evp : EvpDigests) (magic salt : List Char) :
    shacrypt evp [] magic salt = none := by
  unfold shacrypt
  split
  · simp
  · rfl

section
variable {evp : EvpDigests} {name salt passwd : List Char} {user : NeuUser}

theorem hashPassword_holds (good : GoodRounds salt none) (whole : salt.length = SALT_LEN_MAX)
    (holds : HoldsPassword evp name salt user passwd) {attempt : List Char}
    (named : attempt ≠ []) :
    hashPassword evp attempt (user.hash.drop 3) =
        some (hashText ['5'] none salt (encoded evp.sha256 groups256 attempt salt none)) ∧
      (user.hash = hashText ['5'] none salt (encoded evp.sha256 groups256 attempt salt none) ↔
        saltedDigest evp salt attempt = saltedDigest evp salt passwd) := by
  have md : magicDigest evp ['5'] = some (evp.sha256, groups256) := rfl
  constructor
  · rw [hashPassword, holds.hash]
    exact shacrypt_again md good whole _ named
  · rw [holds.hash, hashText_injective, eq_comm]
    exact encoded_injective md

theorem updatePassword_holds (good : GoodRounds salt none) (whole : salt.length = SALT_LEN_MAX)
    (user : NeuUser) (passwd newPassword passwd' : List Char) (rv : Int)
    (holds : HoldsPassword evp name salt user passwd)
    (stepped : passwordStep evp salt passwd newPassword = some (passwd', rv)) :
    ∃ user', userStep evp user newPassword = some (user', rv) ∧
      HoldsPassword evp name salt user' passwd' := by
  unfold passwordStep at stepped
  split_ifs at stepped with empty same
  · cases stepped
    have nothing : hashPassword evp newPassword (user.hash.drop 3) = none := by
      rw [empty]
      exact shacrypt_empty _ _ _
    exact ⟨user, by rw [userStep, neuUserUpdatePassword, nothing], holds⟩
  · cases stepped
    obtain ⟨hashed, compared⟩ := hashPassword_holds good whole holds empty
    have stays := compared.2 same
    exact ⟨user, by simp only [userStep, neuUserUpdatePassword, hashed, if_pos stays], holds⟩
  · cases stepped
    obtain ⟨hashed, compared⟩ := hashPassword_holds good whole holds empty
    have changes := mt compared.1 same
    refine ⟨⟨user.name, hashText ['5'] none salt
      (encoded evp.sha256 groups256 newPassword salt none)⟩, ?_, holds.name, rfl⟩
    simp only [userStep, neuUserUpdatePassword, hashed, if_neg changes]

theorem neuUserNew_holds {first : List Char} (named : first ≠ []) {random : List UInt8}
    (sixteen : random.length = SALT_LEN_MAX) :
    ∃ user, neuUserNew evp name first random = some user ∧
      HoldsPassword evp name (randomSalt random) user first := by
  have good := randomSalt_good random
  have plain : saltRounds (randomSalt random) = some (randomSalt random, none) := by
    rw [saltRounds, if_neg (by simpa [GoodRounds] using good)]
  have cut : (randomSalt random).take SALT_LEN_MAX = randomSalt random := by
    rw [← sixteen, randomSalt, ← List.map_take, List.take_length]
  have salted : (randomSalt random).take SALT_LEN_MAX ≠ [] := by
    rw [cut, randomSalt]
    intro empty
    rw [List.map_eq_nil_iff.1 empty] at sixteen
    cases sixteen
  have md : magicDigest evp ['5'] = some (evp.sha256, groups256) := rfl
  have hashed := shacrypt_text md plain named salted
  rw [cut] at hashed
  refine ⟨⟨name, hashText ['5'] none (randomSalt random)
    (encoded evp.sha256 groups256 first (randomSalt random) none)⟩, ?_, rfl, rfl⟩
  rw [neuUserNew, hashPassword, hashed, Option.map_some]

end

/-- Over any changes of the password the codes are those of a user whose password is known, and at
the end exactly the attempts with the digest of the last password accepted are hashed to the stored
hash. The name stays. -/
theorem user_passwords (evp : EvpDigests) (name first : List Char) (random : List UInt8)
    (named : first ≠ []) (sixteen : random.length = 16) (changes : List (List Char)) :
    ∃ user, neuUserNew evp name first random = some user ∧
      ∃ last codes user',
        Run.observe (passwordStep evp (randomSalt random)) first changes = some (last, codes) ∧
        Run.observe (userStep evp) user changes = some (user', codes) ∧
        user'.name = name ∧
        ∀ attempt, attempt ≠ [] →
          ∃ hash, hashPassword evp attempt (user'.hash.drop 3) = some hash ∧
            (user'.hash = hash ↔ saltedDigest evp (randomSalt random) attempt =
              saltedDigest evp (randomSalt random) last) := by
  have good := randomSalt_good random
  have whole : (randomSalt random).length = SALT_LEN_MAX := by
    rw [randomSalt, List.length_map]
    exact sixteen
  have always : ∀ passwd newPassword,
      (passwordStep evp (randomSalt random) passwd newPassword).isSome := by
    intro passwd newPassword
    unfold passwordStep
    split_ifs <;> rfl
  obtain ⟨user, created, holds⟩ := neuUserNew_holds named sixteen
  obtain ⟨last, codes, spec⟩ := Run.observe_total always first changes
  obtain ⟨user', ran, kept⟩ := Run.same_observations (updatePassword_holds good whole) holds spec
  refine ⟨user, created, last, codes, user', spec, ran, kept.name, fun attempt tried => ?_⟩
  obtain ⟨hashed, compared⟩ := hashPassword_holds good whole kept tried
  exact ⟨_, hashed, compared⟩

theorem user_passwords_changed :
    ∃ user, neuUserNew evpDigests "admin".toList "0000".toList (List.replicate 16 7) = some user ∧
      ∃ last codes user',
        Run.observe (passwordStep evpDigests (randomSalt (List.replicate 16 7))) "0000".toList
          ["1234".toList, []] = some (last, codes) ∧
        Run.observe (userStep evpDigests) user ["1234".toList, []] = some (user', codes) ∧
        user'.name = "admin".toList ∧
        ∀ attempt, attempt ≠ [] →
          ∃ hash, hashPassword evpDigests attempt (user'.hash.drop 3) = some hash ∧
            (user'.hash = hash ↔
              saltedDigest evpDigests (randomSalt (List.replicate 16 7)) attempt =
                saltedDigest evpDigests (randomSalt (List.replicate 16 7)) last) :=
  user_passwords evpDigests _ _ _ (by decide) rfl _

end Cpm

import Mathlib.Data.Int.ModEq
import SparxRobot.Cpp.Text

/-! The configuration files of the program on the camera's board: words taken in pairs, a key
and its value. What cannot be converted is logged and read as the default. -/
namespace SparxRobot.Vision
open Cpp

abbrev Text := List Char

/-- The map, its pairs in the order they were emplaced in. -/
abbrev Configs := List (Text × Text)

/-- A key that is there keeps its value. -/
def emplace (configs : Configs) (key value : Text) : Configs :=
  if (configs.lookup key).isSome then configs else configs ++ [(key, value)]

/-- The loop of the constructor, from where the stream is. -/
def readConfigs (f : Text) (configs : Configs) : Configs :=
  match _ : extract f with
  | none => configs
  | some (key, afterKey) =>
      match _ : extract afterKey with
      | none => configs
      | some (value, afterValue) => readConfigs afterValue (emplace configs key value)
termination_by f.length
decreasing_by
  have hkey := (words_of_extract_eq_some ‹extract f = some (key, afterKey)›).2.2
  have hvalue := (words_of_extract_eq_some ‹extract afterKey = some (value, afterValue)›).2.2
  omega

/-- Nothing is extracted from a file that cannot be opened. -/
def ConfigReader (file : Option Text) : Configs := readConfigs (file.getD []) []

namespace ConfigReader

def GetBool (configs : Configs) (key : Text) (b : Bool) : Bool :=
  match configs.lookup key with
  | some value =>
      if value = "true".toList then true else if value = "false".toList then false else b
  | none => b

/-- The `unsigned long` that is converted is returned as an `unsigned int`. -/
def GetUInt (configs : Configs) (key : Text) (u : UInt32) : UInt32 :=
  match configs.lookup key with
  | some value =>
      match stoul value with
      | some n => n.toUInt32
      | none => u
  | none => u

def GetString (configs : Configs) (key s : Text) : Text := (configs.lookup key).getD s

/-- Words in pairs. One that is left over is ignored. -/
def pairs : List Text → Configs
  | key :: value :: rest => (key, value) :: pairs rest
  | _ => []

/-- The value a file gives a key: the first one. -/
def valueOf (file : Option Text) (key : Text) : Option Text :=
  (pairs (words (file.getD []))).lookup key

def readBool (value : Text) : Option Bool :=
  if value = "true".toList then some true else if value = "false".toList then some false else none

def readUInt (value : Text) : Option UInt32 := (stoul value).map UInt64.toUInt32

/-- A key's value where the file gives one that can be read, and the default otherwise. -/
def setting {α : Type*} (read : Text → Option α) (file : Option Text) (key : Text) (d : α) : α :=
  ((valueOf file key).bind read).getD d

/-- The number that is all of the value, when it is an unsigned int, and the default otherwise. -/
structure ExactOrDefaulted (value : Option Text) (u result : UInt32) : Prop where
  parsed : ∀ text n, value = some text → Numeral n text → 0 ≤ n → n < 4294967296 → result.toNat = n
  defaulted : (∀ text n, value = some text → Numeral n text → ¬ (0 ≤ n ∧ n < 4294967296)) →
    result = u

/-- A number that the value starts with, and that is within an `unsigned long` but for its
sign, is all of the value and an unsigned int, or the default modulo 2 to the 32. -/
def NumberFits (value : Option Text) (u : UInt32) : Prop :=
  ∀ text n rest, value = some text → StartsWith text n rest → n.natAbs < UInt64.size →
    (rest = [] ∧ 0 ≤ n ∧ n < 4294967296) ∨ n ≡ u.toNat [ZMOD 4294967296]

section Reading

variable {configs : Configs} {key value : Text}

theorem lookup_emplace (configs : Configs) (key value k : Text) :
    (emplace configs key value).lookup k = (configs.lookup k).or ([(key, value)].lookup k) := by
  unfold emplace
  split
  · next hthere =>
    rcases eq_or_ne k key with rfl | hne
    · exact (Option.or_of_isSome hthere).symm
    · simp [hne]
  · exact List.lookup_append

/-- The loop emplaces the pairs of the words that are left. -/
theorem lookup_readConfigs (f : Text) (configs : Configs) (k : Text) :
    (readConfigs f configs).lookup k = (configs.lookup k).or ((pairs (words f)).lookup k) := by
  fun_induction readConfigs f configs with
  | case1 f configs hkey =>
    rw [words_of_extract_eq_none hkey]
    simp [pairs]
  | case2 f configs key afterKey hkey hvalue =>
    rw [(words_of_extract_eq_some hkey).1, words_of_extract_eq_none hvalue]
    simp [pairs]
  | case3 f configs key afterKey hkey value afterValue hvalue ih =>
    rw [ih, lookup_emplace, (words_of_extract_eq_some hkey).1, (words_of_extract_eq_some hvalue).1,
      pairs, Option.or_assoc, ← List.lookup_append, List.singleton_append]

/-- What the map holds is the first value of every key. -/
theorem lookup_configReader (file : Option Text) (key : Text) :
    (ConfigReader file).lookup key = valueOf file key := by
  rw [ConfigReader, lookup_readConfigs, List.lookup_nil, Option.none_or, valueOf]

theorem snd_mem_of_mem_pairs {p : Text × Text} {ws : List Text} (h : p ∈ pairs ws) : p.2 ∈ ws := by
  fun_induction pairs ws with
  | case1 key value rest ih =>
    rcases List.mem_cons.mp h with rfl | hrest
    · simp
    · exact .tail _ (.tail _ (ih hrest))
  | case2 => nomatch h

theorem isWord_of_valueOf {file : Option Text} (h : valueOf file key = some value) :
    IsWord value := by
  obtain ⟨before, after, hpairs, -⟩ := List.lookup_eq_some_iff.mp h
  have hmem : (key, value) ∈ pairs (words (file.getD [])) := by simp [hpairs]
  exact isWord_of_mem_words (snd_mem_of_mem_pairs hmem)

variable (file : Option Text) (key : Text)

theorem getBool_eq (b : Bool) :
    GetBool (ConfigReader file) key b = setting readBool file key b := by
  rw [GetBool, lookup_configReader, setting]
  cases valueOf file key with
  | none => rfl
  | some value =>
    simp only [Option.bind_some, readBool]
    split
    · rfl
    · split <;> rfl

theorem getUInt_eq (u : UInt32) :
    GetUInt (ConfigReader file) key u = setting readUInt file key u := by
  rw [GetUInt, lookup_configReader, setting]
  cases valueOf file key with
  | none => rfl
  | some value =>
    simp only [Option.bind_some, readUInt]
    cases stoul value <;> rfl

theorem getString_eq (s : Text) :
    GetString (ConfigReader file) key s = setting some file key s := by
  rw [GetString, lookup_configReader, setting, Option.bind_fun_some]

end Reading

section Unsigned

variable {value : Text} {n : ℤ} {u : UInt32}

theorem startsWith_nil_iff : StartsWith value n [] ↔ Numeral n value := by
  simp [StartsWith]

theorem strto_of_isWord {rest : Text} (hword : IsWord value) :
    strto value = some (n, rest) ↔ StartsWith value n rest := by
  rw [strto_eq_some_iff, dropWhile_isspace_of_isWord hword]

/-- A word that starts with a numeral of `n` is the numeral of no other number. -/
theorem eq_of_numeral {m : ℤ} {rest : Text} (hword : IsWord value) (hn : StartsWith value n rest)
    (hm : Numeral m value) : m = n ∧ rest = [] := by
  have hstart := (strto_of_isWord hword).mpr (startsWith_nil_iff.mpr hm)
  rw [(strto_of_isWord hword).mpr hn] at hstart
  obtain ⟨rfl, rfl⟩ := Prod.mk.inj (Option.some.inj hstart)
  exact ⟨rfl, rfl⟩

/-- What is read of a value is the number it starts with, modulo 2 to the 32. -/
theorem readUInt_eq (value : Text) : readUInt value =
    (strto value).bind fun p =>
      if p.1.natAbs < UInt64.size then some (UInt32.ofInt p.1) else none := by
  unfold readUInt stoul
  cases strto value with
  | none => rfl
  | some p =>
    rw [Option.bind_some, Option.bind_some, apply_ite (Option.map UInt64.toUInt32), Option.map_some,
      toUInt32_ofInt, Option.map_none]

theorem ofInt_eq_iff : UInt32.ofInt n = u ↔ n ≡ u.toNat [ZMOD 4294967296] := by
  rw [← UInt32.toNat_inj, UInt32.ofInt, UInt32.toNat_ofNat', Int.ModEq]
  have hu := u.toNat_lt
  omega

theorem toNat_eq_iff (h : 0 ≤ n ∧ n < 4294967296) : (u.toNat : ℤ) = n ↔ u = UInt32.ofInt n := by
  rw [eq_comm (a := u), ofInt_eq_iff, Int.ModEq]
  have hu := u.toNat_lt
  omega

/-- What has no numeral for a value is the default. -/
theorem exactOrDefaulted_of_not_numeral {value : Option Text} {result : UInt32}
    (h : ∀ text n, value = some text → ¬ Numeral n text) :
    ExactOrDefaulted value u result ↔ result = u := by
  constructor
  · exact fun hread => hread.defaulted fun text n htext hn => absurd hn (h text n htext)
  · exact fun hu => ⟨fun text n htext hn => absurd hn (h text n htext), fun _ => hu⟩

/-- What a value that starts with a number is to be read as. -/
theorem exactOrDefaulted_iff {rest : Text} {result : UInt32} (hword : IsWord value)
    (hn : StartsWith value n rest) : ExactOrDefaulted (some value) u result ↔
      result = if rest = [] ∧ 0 ≤ n ∧ n < 4294967296 then UInt32.ofInt n else u := by
  split
  · next hfits =>
    obtain ⟨rfl, hrange⟩ := hfits
    rw [← toNat_eq_iff hrange]
    constructor
    · exact fun hread => hread.parsed value n rfl (startsWith_nil_iff.mp hn) hrange.1 hrange.2
    · intro hresult
      constructor
      · rintro _ m ⟨⟩ hm - -
        rw [(eq_of_numeral hword hn hm).1, hresult]
      · exact fun hnone => absurd hrange (hnone value n rfl (startsWith_nil_iff.mp hn))
  · next hfits =>
    have hout : ∀ text m, some value = some text → Numeral m text →
        ¬ (0 ≤ m ∧ m < 4294967296) := by
      rintro _ m ⟨⟩ hm hrange
      obtain ⟨rfl, rfl⟩ := eq_of_numeral hword hn hm
      exact hfits ⟨rfl, hrange⟩
    constructor
    · exact fun hread => hread.defaulted hout
    · exact fun hu => ⟨fun text m htext hm h0 hlt => absurd ⟨h0, hlt⟩ (hout text m htext hm),
        fun _ => hu⟩

theorem numberFits_iff {rest : Text} (hword : IsWord value) (hn : StartsWith value n rest) :
    NumberFits (some value) u ↔ (n.natAbs < UInt64.size →
      (rest = [] ∧ 0 ≤ n ∧ n < 4294967296) ∨ n ≡ u.toNat [ZMOD 4294967296]) := by
  constructor
  · exact fun hfits => hfits value n rest rfl hn
  · rintro hfits _ m rest' ⟨⟩ hm
    have hsame := ((strto_of_isWord hword).mpr hm).symm.trans ((strto_of_isWord hword).mpr hn)
    obtain ⟨rfl, rfl⟩ := Prod.mk.inj (Option.some.inj hsame)
    exact hfits

/-- For every file, key and default, a value is read exactly or not at all if and only if the
number it starts with, where `unsigned long` holds it, is all of it and an unsigned int, or
the default by chance. -/
theorem getUInt_exact_iff (file : Option Text) (key : Text) (u : UInt32) :
    ExactOrDefaulted (valueOf file key) u (GetUInt (ConfigReader file) key u) ↔
      NumberFits (valueOf file key) u := by
  rw [getUInt_eq, setting]
  cases hvalue : valueOf file key with
  | none =>
    rw [exactOrDefaulted_of_not_numeral (by simp)]
    exact iff_of_true rfl (by simp [NumberFits])
  | some value =>
    have hword := isWord_of_valueOf hvalue
    rw [Option.bind_some, readUInt_eq]
    cases hstrto : strto value with
    | none =>
      have hnot : ∀ n rest, ¬ StartsWith value n rest := by
        intro n rest hn
        rw [(strto_of_isWord hword).mpr hn] at hstrto
        nomatch hstrto
      refine iff_of_true ((exactOrDefaulted_of_not_numeral ?_).mpr rfl) ?_
      · rintro _ n ⟨⟩ hn
        exact hnot n [] (startsWith_nil_iff.mpr hn)
      · rintro _ n rest ⟨⟩ hn
        exact absurd hn (hnot n rest)
    | some p =>
      obtain ⟨n, rest⟩ := p
      have hn := (strto_of_isWord hword).mp hstrto
      rw [exactOrDefaulted_iff hword hn, numberFits_iff hword hn, Option.bind_some]
      by_cases hsize : n.natAbs < UInt64.size
      · rw [if_pos hsize, Option.getD_some, forall_prop_of_true hsize]
        split
        · next hfits => exact iff_of_true rfl (.inl hfits)
        · next hfits => rw [or_iff_right hfits, ofInt_eq_iff]
      · have hfits : ¬ (rest = [] ∧ 0 ≤ n ∧ n < 4294967296) := by
          have hulong : UInt64.size = 18446744073709551616 := rfl
          omega
        rw [if_neg hsize, if_neg hfits]
        exact iff_of_true rfl fun hless => absurd hless hsize

/-- A negative number is wrapped around. -/
theorem negative_wrapped : ¬ ∀ (file : Option Text) key u,
    ExactOrDefaulted (valueOf file key) u (GetUInt (ConfigReader file) key u) := by
  intro hall
  have hread := hall (some "HUE_MIN -1".toList) "HUE_MIN".toList 40
  have hvalue : valueOf (some "HUE_MIN -1".toList) "HUE_MIN".toList = some "-1".toList := by decide
  have hword := isWord_of_valueOf hvalue
  have hn : StartsWith "-1".toList (-1) [] := (strto_of_isWord hword).mp (by decide)
  rw [getUInt_eq, setting, hvalue, exactOrDefaulted_iff hword hn] at hread
  exact absurd hread (by decide)

end Unsigned

end ConfigReader

end SparxRobot.Vision

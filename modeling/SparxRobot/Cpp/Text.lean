import Mathlib.Algebra.Group.Basic
import Mathlib.Algebra.Group.Int.Defs
import Mathlib.Data.List.TakeWhile
import Mathlib.Tactic.Common

/-! What the program on the camera's board uses of C++'s text functions: words read from a
stream, and integers in base ten as the `strto` functions read them. The locale is the C one. -/
namespace SparxRobot.Cpp

def isspace (c : Char) : Bool := c = ' ' || decide (9 ≤ c.toNat ∧ c.toNat ≤ 13)

/-- `stream >> word`: the word and what the stream has left. None is a failed extraction. -/
def extract (stream : List Char) : Option (List Char × List Char) :=
  match stream.dropWhile isspace with
  | [] => none
  | c :: cs => some ((c :: cs).takeWhile (!isspace ·), (c :: cs).dropWhile (!isspace ·))

/-- The value of the digits a text starts with, and what follows them. -/
def readDigits (s : List Char) : Option (ℤ × List Char) :=
  let digits := s.takeWhile Char.isDigit
  if digits = [] then none
  else some ((Nat.ofDigitChars 10 digits 0 : ℕ), s.dropWhile Char.isDigit)

/-- The number the `strto` functions convert, and the text behind it. None is no conversion. -/
def strto (s : List Char) : Option (ℤ × List Char) :=
  match s.dropWhile isspace with
  | '-' :: s => (readDigits s).map fun p => (-p.1, p.2)
  | '+' :: s => readDigits s
  | s => readDigits s

/-- `std::stoul`: a number that is negative is negated in the unsigned type. None is an
exception, `invalid_argument` or `out_of_range`. -/
def stoul (s : List Char) : Option UInt64 :=
  (strto s).bind fun p => if p.1.natAbs < UInt64.size then some (UInt64.ofInt p.1) else none

/-- `stream >> n` for an `unsigned int`. -/
def extractUInt (stream : List Char) : Option UInt32 :=
  (strto stream).bind fun p => if p.1.natAbs < UInt32.size then some (UInt32.ofInt p.1) else none

example : stoul " +7".toList = some 7 ∧ stoul "12ab".toList = some 12 ∧
    stoul "-1".toList = some 18446744073709551615 ∧
    stoul "18446744073709551616".toList = none ∧ stoul "x".toList = none := by decide

/-- The words of a text. -/
def words (text : List Char) : List (List Char) := (text.splitOnP isspace).filter (· ≠ [])

/-- A word has characters, and no white space among them. -/
def IsWord (word : List Char) : Prop := word ≠ [] ∧ ∀ c ∈ word, isspace c = false

def IsDigits (digits : List Char) : Prop := digits ≠ [] ∧ ∀ c ∈ digits, c.isDigit = true

/-- The texts of an integer in base ten. -/
inductive Numeral : ℤ → List Char → Prop
  | unsigned {digits : List Char} (h : IsDigits digits) :
      Numeral (Nat.ofDigitChars 10 digits 0 : ℕ) digits
  | plus {digits : List Char} (h : IsDigits digits) :
      Numeral (Nat.ofDigitChars 10 digits 0 : ℕ) ('+' :: digits)
  | minus {digits : List Char} (h : IsDigits digits) :
      Numeral (-(Nat.ofDigitChars 10 digits 0 : ℕ)) ('-' :: digits)

/-- The text starts with a numeral of `n`, and its digits end before `rest`. -/
def StartsWith (s : List Char) (n : ℤ) (rest : List Char) : Prop :=
  ∃ numeral, s = numeral ++ rest ∧ Numeral n numeral ∧ ∀ c ∈ rest.head?, c.isDigit = false

section Words

/-- A list is cut where a test first fails. -/
theorem takeWhile_dropWhile_iff {α : Type*} {p : α → Bool} {l taken dropped : List α} :
    l.takeWhile p = taken ∧ l.dropWhile p = dropped ↔
      l = taken ++ dropped ∧ (∀ c ∈ taken, p c = true) ∧ ∀ c ∈ dropped.head?, p c = false := by
  constructor
  · rintro ⟨rfl, rfl⟩
    refine ⟨List.takeWhile_append_dropWhile.symm, fun c hc => List.mem_takeWhile_imp hc, ?_⟩
    intro c hc
    have hhead := List.head?_dropWhile_not p l
    rwa [Option.mem_def.mp hc] at hhead
  · rintro ⟨rfl, htaken, hdropped⟩
    rw [List.takeWhile_append_of_pos htaken, List.dropWhile_append_of_pos htaken]
    cases dropped with
    | nil => simp
    | cons c dropped => simp [hdropped c rfl]

variable {stream word rest : List Char}

theorem words_nil : words [] = [] := rfl

theorem words_cons_of_isspace {c : Char} (h : isspace c = true) :
    words (c :: rest) = words rest := by
  simp [words, List.splitOnP_cons_eq_if_modifyHead, h]

theorem words_dropWhile (stream : List Char) : words (stream.dropWhile isspace) = words stream := by
  induction stream with
  | nil => rfl
  | cons c stream ih =>
    cases hc : isspace c with
    | true => rw [List.dropWhile_cons_of_pos hc, ih, words_cons_of_isspace hc]
    | false => rw [List.dropWhile_cons_of_neg (by simp [hc])]

/-- A word ends at white space or with the text. -/
theorem words_append (hword : IsWord word) (hrest : ∀ c ∈ rest.head?, isspace c = true) :
    words (word ++ rest) = word :: words rest := by
  obtain ⟨hne, hchars⟩ := hword
  cases rest with
  | nil => simp [words, List.splitOnP_eq_singleton hchars, hne]
  | cons c rest =>
    have hc : isspace c = true := hrest c rfl
    rw [words_cons_of_isspace hc]
    simp [words, List.splitOnP_append_cons_of_forall_mem hchars c hc, hne]

theorem dropWhile_isspace_of_isWord (h : IsWord word) : word.dropWhile isspace = word := by
  obtain ⟨c, cs, rfl⟩ := List.exists_cons_of_ne_nil h.1
  exact List.dropWhile_cons_of_neg (by simp [h.2 c List.mem_cons_self])

theorem words_of_extract_eq_none (h : extract stream = none) : words stream = [] := by
  unfold extract at h
  split at h
  · next hnil => rw [← words_dropWhile, hnil, words_nil]
  · nomatch h

/-- An extraction takes the first word off the stream. -/
theorem words_of_extract_eq_some (h : extract stream = some (word, rest)) :
    words stream = word :: words rest ∧ IsWord word ∧ rest.length < stream.length := by
  unfold extract at h
  split at h
  · nomatch h
  · next c cs hcons =>
    obtain ⟨hstream, hchars, hrest⟩ :=
      takeWhile_dropWhile_iff.mp (Prod.mk.inj (Option.some.inj h))
    obtain ⟨-, -, hc⟩ := takeWhile_dropWhile_iff.mp ⟨rfl, hcons⟩
    have hword : IsWord word := by
      refine ⟨?_, fun d hd => by simpa using hchars d hd⟩
      rintro rfl
      obtain rfl : c :: cs = rest := hstream
      have hspace : isspace c = true := by simpa using hrest c rfl
      exact Bool.noConfusion (hspace.symm.trans (hc c rfl))
    refine ⟨?_, hword, ?_⟩
    · rw [← words_append hword (fun d hd => by simpa using hrest d hd), ← hstream, ← hcons,
        words_dropWhile]
    · have hle := (List.dropWhile_suffix (l := stream) isspace).length_le
      have hpos := List.length_pos_iff.mpr hword.1
      rw [hcons, hstream, List.length_append] at hle
      omega

theorem isWord_of_mem_words {text : List Char} (h : word ∈ words text) : IsWord word := by
  induction hlength : text.length using Nat.strong_induction_on generalizing text with
  | _ n ih =>
    cases hextract : extract text with
    | none =>
      rw [words_of_extract_eq_none hextract] at h
      nomatch h
    | some p =>
      obtain ⟨first, rest⟩ := p
      obtain ⟨hwords, hfirst, hless⟩ := words_of_extract_eq_some hextract
      rw [hwords] at h
      rcases List.mem_cons.mp h with rfl | hrest
      · exact hfirst
      · exact ih rest.length (hlength ▸ hless) hrest rfl

end Words

section Numbers

variable {s : List Char} {n : ℤ} {rest : List Char}

theorem readDigits_eq_some_iff : readDigits s = some (n, rest) ↔
    ∃ digits, (s = digits ++ rest ∧ IsDigits digits ∧ ∀ c ∈ rest.head?, c.isDigit = false) ∧
      n = (Nat.ofDigitChars 10 digits 0 : ℕ) := by
  unfold readDigits
  constructor
  · intro h
    dsimp only at h
    split at h
    · nomatch h
    · next hne =>
      obtain ⟨rfl, hrest⟩ := Prod.mk.inj (Option.some.inj h)
      obtain ⟨hs, hdigits, hend⟩ := takeWhile_dropWhile_iff.mp ⟨rfl, hrest⟩
      exact ⟨_, ⟨hs, ⟨hne, hdigits⟩, hend⟩, rfl⟩
  · rintro ⟨digits, ⟨hs, ⟨hne, hdigits⟩, hend⟩, rfl⟩
    obtain ⟨htaken, hdropped⟩ := takeWhile_dropWhile_iff.mpr ⟨hs, hdigits, hend⟩
    simp only [htaken, hdropped, hne, ↓reduceIte]

/-- The three ways a text can start with a numeral. -/
theorem startsWith_iff : StartsWith s n rest ↔ readDigits s = some (n, rest) ∨
    (∃ t, s = '+' :: t ∧ readDigits t = some (n, rest)) ∨
      ∃ t, s = '-' :: t ∧ readDigits t = some (-n, rest) := by
  simp only [readDigits_eq_some_iff]
  constructor
  · rintro ⟨numeral, rfl, hnumeral, hend⟩
    cases hnumeral with
    | unsigned h => exact .inl ⟨_, ⟨rfl, h, hend⟩, rfl⟩
    | plus h => exact .inr (.inl ⟨_, rfl, _, ⟨rfl, h, hend⟩, rfl⟩)
    | minus h => exact .inr (.inr ⟨_, rfl, _, ⟨rfl, h, hend⟩, neg_neg _⟩)
  · rintro (⟨digits, ⟨rfl, h, hend⟩, rfl⟩ | ⟨_, rfl, digits, ⟨rfl, h, hend⟩, rfl⟩ |
      ⟨_, rfl, digits, ⟨rfl, h, hend⟩, hn⟩)
    · exact ⟨digits, rfl, .unsigned h, hend⟩
    · exact ⟨'+' :: digits, rfl, .plus h, hend⟩
    · obtain rfl := neg_eq_iff_eq_neg.mp hn
      exact ⟨'-' :: digits, rfl, .minus h, hend⟩

theorem readDigits_cons_of_not_isDigit {c : Char} (h : c.isDigit = false) :
    readDigits (c :: s) = none := by simp [readDigits, h]

/-- No sign is a digit, so a text starts with a numeral in one way at most. -/
theorem strto_eq_some_iff :
    strto s = some (n, rest) ↔ StartsWith (s.dropWhile isspace) n rest := by
  have hplus : ∀ t, readDigits ('+' :: t) = none := fun t => readDigits_cons_of_not_isDigit rfl
  have hminus : ∀ t, readDigits ('-' :: t) = none := fun t => readDigits_cons_of_not_isDigit rfl
  rw [startsWith_iff]
  unfold strto
  split
  · next t ht =>
    rw [ht, hminus, Option.map_eq_some_iff]
    simp [neg_eq_iff_eq_neg]
  · next t ht =>
    rw [ht, hplus]
    simp
  · next hnotMinus hnotPlus =>
    refine (or_iff_left ?_).symm
    rintro (⟨t, ht, -⟩ | ⟨t, ht, -⟩)
    · exact hnotPlus t ht
    · exact hnotMinus t ht

/-- A conversion that is narrowed to 32 bits. -/
theorem toUInt32_ofInt (n : ℤ) : (UInt64.ofInt n).toUInt32 = UInt32.ofInt n := by
  apply UInt32.toNat.inj
  rw [UInt64.ofInt, UInt32.ofInt, UInt64.toUInt32_ofNat', UInt32.toNat_ofNat', UInt32.toNat_ofNat']
  omega

end Numbers

end SparxRobot.Cpp

import Mathlib.Tactic.Common
import SparxRobot.Java.Text

/-! Text that is written is read back: numbers in decimal, values between commas, lines before
their terminators. -/
namespace SparxRobot.Java

/-- `Integer.toString`. -/
def toString (n : Int32) : List Char :=
  if n.toInt < 0 then '-' :: Nat.toDigits 10 n.toInt.natAbs else Nat.toDigits 10 n.toInt.natAbs

section Numbers

theorem digit_of_isDigit {c : Char} (h : c.isDigit = true) : digit c = some (c.toNat - 48) := by
  obtain ⟨hmin, hmax⟩ := Char.isDigit_iff_toNat.mp h
  change 48 ≤ c.toNat at hmin
  change c.toNat ≤ 57 at hmax
  have hmax : c.toNat < 58 := by omega
  simp [digit, digitZeros, hmin, hmax]

theorem mapM_digit {cs : List Char} (h : ∀ c ∈ cs, c.isDigit = true) :
    cs.mapM digit = some (cs.map (·.toNat - 48)) := by
  induction cs with
  | nil => rfl
  | cons c cs ih =>
    obtain ⟨hc, hcs⟩ := List.forall_mem_cons.mp h
    rw [List.mapM_cons, digit_of_isDigit hc, ih hcs]
    rfl

/-- The digits of a number add up to it. -/
theorem magnitude_toDigits (n : ℕ) :
    ((Nat.toDigits 10 n).map (·.toNat - 48)).foldl (fun value d => 10 * value + d) 0 = n := by
  rw [List.foldl_map]
  exact Nat.ofDigitChars_ten_toDigits

/-- No sign is a digit. -/
theorem head?_toDigits_ne {n : ℕ} {c : Char} (hc : c.isDigit = false) :
    (Nat.toDigits 10 n).head? ≠ some c := by
  intro hhead
  have hmem := List.mem_of_mem_head? (Option.mem_def.mpr hhead)
  have hdigit := Nat.isDigit_of_mem_toDigits (by decide) (by decide) hmem
  exact Bool.noConfusion (hc.symm.trans hdigit)

theorem parseInt_toString (n : Int32) : parseInt (toString n) = some n := by
  have hmin : -2147483648 ≤ n.toInt := n.le_toInt
  have hmax : n.toInt ≤ 2147483647 := Int.le_of_lt_add_one n.toInt_lt
  have hdigits := mapM_digit fun c hc =>
    Nat.isDigit_of_mem_toDigits (n := n.toInt.natAbs) (c := c) (b := 10) (by decide) (by decide) hc
  rcases lt_or_ge n.toInt 0 with hneg | hpos
  · have habs : -(n.toInt.natAbs : ℤ) = n.toInt := by omega
    simp only [parseInt, toString, hneg, ↓reduceIte, List.head?_cons, List.tail_cons, true_or,
      Nat.toDigits_ne_nil, hdigits, Option.bind_some, magnitude_toDigits, habs, hmin, hmax,
      and_self, Int32.ofInt_toInt]
  · have habs : (n.toInt.natAbs : ℤ) = n.toInt := by omega
    have hminus : (Nat.toDigits 10 n.toInt.natAbs).head? ≠ some '-' := head?_toDigits_ne rfl
    have hplus : (Nat.toDigits 10 n.toInt.natAbs).head? ≠ some '+' := head?_toDigits_ne rfl
    simp only [parseInt, toString, hpos.not_gt, hminus, hplus, ↓reduceIte, or_self,
      Nat.toDigits_ne_nil, hdigits, Option.bind_some, magnitude_toDigits, habs, hmin, hmax,
      and_self, Int32.ofInt_toInt]

/-- A number is written in digits and a sign. -/
theorem mem_toString {n : Int32} {c : Char} (h : c ∈ toString n) : c = '-' ∨ c.isDigit = true := by
  have hdigit : ∀ c ∈ Nat.toDigits 10 n.toInt.natAbs, c.isDigit = true := fun c hc =>
    Nat.isDigit_of_mem_toDigits (by decide) (by decide) hc
  unfold toString at h
  split at h
  · exact (List.mem_cons.mp h).imp id (hdigit c)
  · exact .inr (hdigit c h)

theorem toString_ne_nil (n : Int32) : toString n ≠ [] := by
  unfold toString
  split
  · exact List.cons_ne_nil _ _
  · exact Nat.toDigits_ne_nil

end Numbers

section Lines

/-- The terminators a reader knows. -/
inductive Eol where
  | lf | cr | crlf
  deriving DecidableEq, Repr

def Eol.chars : Eol → List Char
  | .lf => ['\n']
  | .cr => ['\r']
  | .crlf => ['\r', '\n']

/-- The lines of a file, the last one with or without a terminator. -/
def written (eol : Eol) (terminated : Bool) (ls : List (List Char)) : List Char :=
  if terminated then ls.flatMap (· ++ eol.chars) else eol.chars.intercalate ls

/-- A line without the characters of a terminator. -/
def OneLine (l : List Char) : Prop := '\n' ∉ l ∧ '\r' ∉ l

theorem linesFrom_append {l : List Char} (h : OneLine l) (acc cs : List Char) :
    linesFrom acc (l ++ cs) = linesFrom (l.reverse ++ acc) cs := by
  induction l generalizing acc with
  | nil => rfl
  | cons c l ih =>
    obtain ⟨hn, hr⟩ := h
    rw [List.mem_cons, not_or] at hn hr
    have hstep : linesFrom acc (c :: (l ++ cs)) = linesFrom (c :: acc) (l ++ cs) := by
      rw [linesFrom]
      · exact fun h => hn.1 h.symm
      · exact fun _ h => absurd h.symm hr.1
      · exact fun h => hr.1 h.symm
    rw [List.cons_append, hstep, ih ⟨hn.2, hr.2⟩]
    simp

/-- A terminator ends a line; a return is one by itself when no newline follows. -/
theorem linesFrom_eol {eol : Eol} {rest : List Char}
    (h : eol = .cr → rest.head? ≠ some '\n') (acc : List Char) :
    linesFrom acc (eol.chars ++ rest) = acc.reverse :: linesFrom [] rest := by
  cases eol with
  | lf | crlf => simp [Eol.chars, linesFrom]
  | cr =>
    have hrest := h rfl
    cases rest with
    | nil => simp [Eol.chars, linesFrom]
    | cons c cs =>
      have hc : c ≠ '\n' := by simpa using hrest
      simp [Eol.chars, linesFrom, hc]

theorem linesFrom_last {l : List Char} (h : OneLine l) :
    linesFrom [] l = if l = [] then [] else [l] := by
  have happend := linesFrom_append h [] []
  rw [List.append_nil, List.append_nil] at happend
  rw [happend]
  simp [linesFrom]

/-- With returns as terminators no newline comes first. -/
theorem head?_ne_newline {ls : List (List Char)} {last : List Char} (hls : ∀ l ∈ ls, OneLine l)
    (hlast : OneLine last) :
    (ls.flatMap (· ++ Eol.cr.chars) ++ last).head? ≠ some '\n' := by
  intro hhead
  have hmem := List.mem_of_mem_head? (Option.mem_def.mpr hhead)
  simp only [Eol.chars, List.mem_append, List.mem_flatMap, List.mem_singleton] at hmem
  rcases hmem with ⟨l, hl, hin | hin⟩ | hin
  · exact (hls l hl).1 hin
  · exact absurd hin (by decide)
  · exact hlast.1 hin

theorem lines_terminated {ls : List (List Char)} {last : List Char} (eol : Eol)
    (hls : ∀ l ∈ ls, OneLine l) (hlast : OneLine last) :
    lines (ls.flatMap (· ++ eol.chars) ++ last) = ls ++ if last = [] then [] else [last] := by
  unfold lines
  induction ls with
  | nil => simpa using linesFrom_last hlast
  | cons l ls ih =>
    obtain ⟨hl, hls⟩ := List.forall_mem_cons.mp hls
    have hrest : eol = .cr → (ls.flatMap (· ++ eol.chars) ++ last).head? ≠ some '\n' := by
      rintro rfl
      exact head?_ne_newline hls hlast
    rw [List.flatMap_cons, List.append_assoc, List.append_assoc, linesFrom_append hl,
      linesFrom_eol hrest, ih hls]
    simp

theorem intercalate_concat (sep : List Char) (ls : List (List Char)) (last : List Char) :
    sep.intercalate (ls ++ [last]) = ls.flatMap (· ++ sep) ++ last := by
  induction ls with
  | nil => simp
  | cons l ls ih =>
    have hne : ls ++ [last] ≠ [] := by simp
    rw [List.cons_append, List.intercalate_cons_of_ne_nil hne, ih]
    simp

theorem mem_intercalate {sep : List Char} {ls : List (List Char)} {c : Char}
    (h : c ∈ sep.intercalate ls) : c ∈ sep ∨ ∃ l ∈ ls, c ∈ l := by
  rcases List.eq_nil_or_concat ls with rfl | ⟨ls, last, rfl⟩
  · simp at h
  · rw [List.concat_eq_append, intercalate_concat, List.mem_append, List.mem_flatMap] at h
    rcases h with ⟨l, hl, hc⟩ | hc
    · exact (List.mem_append.mp hc).symm.imp id fun hc => ⟨l, by simp [hl], hc⟩
    · exact .inr ⟨last, by simp, hc⟩

/-- The lines of a file are read back, but for an empty one at its end. -/
theorem lines_written {ls : List (List Char)} (eol : Eol) (terminated : Bool)
    (hls : ∀ l ∈ ls, OneLine l) : lines (written eol terminated ls) = ls ∨
      ls = lines (written eol terminated ls) ++ [[]] := by
  cases terminated with
  | true =>
    have hempty : OneLine [] := ⟨List.not_mem_nil, List.not_mem_nil⟩
    exact .inl (by simpa [written] using lines_terminated eol hls hempty)
  | false =>
    rcases List.eq_nil_or_concat ls with rfl | ⟨ls, last, rfl⟩
    · exact .inl rfl
    · rw [List.concat_eq_append] at hls ⊢
      rw [List.forall_mem_append] at hls
      have hlines := lines_terminated eol hls.1 (hls.2 last List.mem_cons_self)
      simp only [written, Bool.false_eq_true, ↓reduceIte, intercalate_concat, hlines]
      rcases eq_or_ne last [] with rfl | hlast
      · exact .inr (by simp)
      · exact .inl (by rw [if_neg hlast])

end Lines

section Split

/-- Parts that are not empty are found again between the separators. -/
theorem split_intercalate {separator : Char} {parts : List (List Char)} (hne : parts ≠ [])
    (hparts : ∀ part ∈ parts, separator ∉ part ∧ part ≠ []) :
    split separator ([separator].intercalate parts) = parts := by
  have hsplit : ([separator].intercalate parts).splitOn separator = parts :=
    List.splitOn_intercalate separator (fun part hpart => (hparts part hpart).1) hne
  unfold split
  split
  · rw [hsplit, List.rdropWhile_eq_self_iff]
    intro hnil
    simpa using (hparts _ (List.getLast_mem hnil)).2
  · next hmem => rw [← hsplit, List.splitOn_eq_singleton hmem, List.intercalate_singleton]

end Split

end SparxRobot.Java

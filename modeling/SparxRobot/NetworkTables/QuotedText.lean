import Mathlib.Tactic.Common
import SparxRobot.NetworkTables.Value

/-! The strings of the persistent file: bytes between quotes, where a backslash escapes the next
one. The locale is the C one. -/
namespace SparxRobot.NetworkTables

def isprint (c : UInt8) : Bool := 32 ≤ c && c ≤ 126

def isxdigit (c : UInt8) : Bool := 48 ≤ c && c ≤ 57 || 97 ≤ c && c ≤ 102 || 65 ≤ c && c ≤ 70

/-- A number below 16. -/
def hexdigit (n : UInt8) : UInt8 := if n < 10 then 48 + n else 65 + n - 10

def fromxdigit (ch : UInt8) : UInt8 :=
  if 97 ≤ ch ∧ ch ≤ 102 then ch - 97 + 10
  else if 65 ≤ ch ∧ ch ≤ 70 then ch - 65 + 10
  else ch - 48

def quote : UInt8 := 34

def backslash : UInt8 := 92

/-- How a byte is written. An equals sign is not, as it ends a name. -/
def escape (c : UInt8) : Bytes :=
  if c = backslash then [backslash, backslash]
  else if c = 9 then [backslash, 116]
  else if c = 10 then [backslash, 110]
  else if c = quote then [backslash, quote]
  else if isprint c ∧ c ≠ 61 then [c]
  else [backslash, 120, hexdigit (c >>> 4 &&& 0xf), hexdigit (c &&& 0xf)]

def WriteString (str : Bytes) : Bytes := quote :: (str.flatMap escape ++ [quote])

/-- The text up to the next quote that does not follow a backslash, and what is left. -/
def scanString (prev : UInt8) : Bytes → Bytes × Bytes
  | [] => ([], [])
  | c :: source =>
      if c = quote ∧ prev ≠ backslash then ([c], source)
      else
        let (token, tail) := scanString c source
        (c :: token, tail)

/-- The token, if there is one, and the tail. -/
def ReadStringToken : Bytes → Bytes × Bytes
  | [] => ([], [])
  | c :: source =>
      if c ≠ quote then ([], c :: source)
      else
        let (token, tail) := scanString c source
        (c :: token, tail)

/-- The bytes that the text between the quotes stands for. A backslash before a quote stays, and
the quote is left out, and so it is with an escape that is not known. None is a step over the end
of the text, which is undefined. -/
def unescape : Bytes → Option Bytes
  | [] => some []
  | c :: s =>
      if c ≠ backslash then (unescape s).map (c :: ·)
      else match s with
        | [] => none
        | e :: s =>
            if e = backslash ∨ e = quote then (unescape s).map (backslash :: ·)
            else if e = 116 then (unescape s).map (9 :: ·)
            else if e = 110 then (unescape s).map (10 :: ·)
            else if e = 120 then
              if !s.head?.any isxdigit then (unescape s).map (120 :: ·)
              else match s with
                | [] => some []
                | h :: s =>
                    if !s.head?.any isxdigit then (unescape s).map (fromxdigit h :: ·)
                    else match s with
                      | [] => some []
                      | l :: s => (unescape s).map ((fromxdigit h <<< 4 ||| fromxdigit l) :: ·)
            else (unescape s).map (backslash :: ·)

/-- A token has its two quotes, or the code is undefined. -/
def UnescapeString (source : Bytes) : Option Bytes :=
  if source.length < 2 then none else unescape source.tail.dropLast

/-- What comes back of a byte. -/
def misread (c : UInt8) : UInt8 := if c = quote then backslash else c

section Written

variable {str : Bytes} {c : UInt8}

theorem hexdigits_of_lt : ∀ n : Fin 256, let c := UInt8.ofNat n
    isxdigit (hexdigit (c >>> 4 &&& 0xf)) ∧ isxdigit (hexdigit (c &&& 0xf)) ∧
      fromxdigit (hexdigit (c >>> 4 &&& 0xf)) <<< 4 ||| fromxdigit (hexdigit (c &&& 0xf)) = c := by
  decide +kernel

theorem hexdigits (c : UInt8) :
    isxdigit (hexdigit (c >>> 4 &&& 0xf)) ∧ isxdigit (hexdigit (c &&& 0xf)) ∧
      fromxdigit (hexdigit (c >>> 4 &&& 0xf)) <<< 4 ||| fromxdigit (hexdigit (c &&& 0xf)) = c := by
  have hc := hexdigits_of_lt ⟨c.toNat, c.toNat_lt⟩
  rwa [UInt8.ofNat_toNat] at hc

theorem ne_of_isxdigit {h : UInt8} (hdigit : isxdigit h) : h ≠ quote ∧ h ≠ backslash := by
  constructor <;>
  · rintro rfl
    exact absurd hdigit (by decide)

theorem unescape_cons (h : c ≠ backslash) (s : Bytes) :
    unescape (c :: s) = (unescape s).map (c :: ·) := by
  rw [unescape.eq_def]
  exact if_pos h

theorem unescape_escape (c : UInt8) (s : Bytes) :
    unescape (escape c ++ s) = (unescape s).map (misread c :: ·) := by
  obtain ⟨hhigh, hlow, hjoined⟩ := hexdigits c
  unfold escape misread
  split
  · next hc => rw [hc, List.cons_append, unescape.eq_def]; rfl
  split
  · next hc => rw [hc, List.cons_append, unescape.eq_def]; rfl
  split
  · next hc => rw [hc, List.cons_append, unescape.eq_def]; rfl
  split
  · next hc => rw [List.cons_append, unescape.eq_def]; rfl
  · next hslash _ _ _ =>
    split
    · exact unescape_cons hslash s
    · rw [List.cons_append, unescape.eq_def]
      simp [backslash, quote, hhigh, hlow, hjoined]

theorem unescape_body (str s : Bytes) :
    unescape (str.flatMap escape ++ s) = (unescape s).map (str.map misread ++ ·) := by
  induction str with
  | nil => exact Option.map_id_fun'.symm ▸ rfl
  | cons c str ih =>
    rw [List.flatMap_cons, List.append_assoc, unescape_escape, ih, Option.map_map]
    rfl

/-- The last byte that is written is a backslash where the byte is one. -/
theorem scan_escape (c : UInt8) : ∃ last, (last = backslash ↔ c = backslash) ∧ ∀ prev s,
    scanString prev (escape c ++ s) =
      (escape c ++ (scanString last s).1, (scanString last s).2) := by
  obtain ⟨hhigh, hlow, -⟩ := hexdigits c
  unfold escape
  split
  · next hc => exact ⟨backslash, by rw [hc], fun prev s => rfl⟩
  split
  · next hslash _ => exact ⟨116, iff_of_false (by decide) hslash, fun prev s => rfl⟩
  split
  · next hslash _ _ => exact ⟨110, iff_of_false (by decide) hslash, fun prev s => rfl⟩
  split
  · next hslash _ _ _ => exact ⟨quote, iff_of_false (by decide) hslash, fun prev s => rfl⟩
  · next hslash _ _ hquote =>
    split
    · refine ⟨c, Iff.rfl, fun prev s => ?_⟩
      rw [List.singleton_append, scanString, if_neg fun h => hquote h.1]
      rfl
    · refine ⟨_, iff_of_false (ne_of_isxdigit hlow).2 hslash, fun prev s => ?_⟩
      have hfirst : ¬ (backslash = quote ∧ prev ≠ backslash) := fun h => absurd h.1 (by decide)
      have hsecond : ¬ ((120 : UInt8) = quote ∧ backslash ≠ backslash) := fun h => h.2 rfl
      simp only [List.cons_append, List.nil_append, scanString, if_neg hfirst, if_neg hsecond,
        (ne_of_isxdigit hhigh).1, (ne_of_isxdigit hlow).1, false_and, ↓reduceIte]

theorem scan_body (str : Bytes) (prev : UInt8) : ∃ last,
    (last = backslash ↔ str.getLast?.getD prev = backslash) ∧ ∀ s,
    scanString prev (str.flatMap escape ++ s) =
      (str.flatMap escape ++ (scanString last s).1, (scanString last s).2) := by
  induction str generalizing prev with
  | nil => exact ⟨prev, Iff.rfl, fun s => rfl⟩
  | cons c str ih =>
    obtain ⟨last₁, hlast₁, hscan₁⟩ := scan_escape c
    obtain ⟨last, hlast, hscan⟩ := ih last₁
    refine ⟨last, hlast.trans ?_, fun s => ?_⟩
    · rw [List.getLast?_cons, Option.getD_some]
      cases str.getLast? with
      | none => exact hlast₁
      | some d => exact Iff.rfl
    · rw [List.flatMap_cons, List.append_assoc, hscan₁, hscan, List.append_assoc]

theorem scanString_append (prev : UInt8) (s : Bytes) :
    (scanString prev s).1 ++ (scanString prev s).2 = s := by
  induction s generalizing prev with
  | nil => rfl
  | cons c s ih =>
    unfold scanString
    split
    · rfl
    · exact congrArg (c :: ·) (ih c)

theorem readStringToken_append (source : Bytes) :
    (ReadStringToken source).1 ++ (ReadStringToken source).2 = source := by
  cases source with
  | nil => rfl
  | cons c source =>
    dsimp only [ReadStringToken]
    split
    · rfl
    · exact congrArg (c :: ·) (scanString_append c source)

/-- A string that does not end in a backslash is read as it was written. -/
theorem readStringToken_written (h : str.getLast? ≠ some backslash) (rest : Bytes) :
    ReadStringToken (WriteString str ++ rest) = (WriteString str, rest) := by
  obtain ⟨last, hlast, hscan⟩ := scan_body str quote
  have hclosed : last ≠ backslash := by
    rw [Ne, hlast]
    intro heq
    cases hstr : str.getLast? with
    | none => rw [hstr] at heq; exact absurd heq (by decide)
    | some d => rw [hstr] at h heq; exact h (congrArg some heq)
  have htoken := hscan (quote :: rest)
  have hend : scanString last (quote :: rest) = ([quote], rest) := if_pos ⟨rfl, hclosed⟩
  rw [hend] at htoken
  rw [WriteString, List.cons_append, List.append_assoc, List.singleton_append, ReadStringToken,
    if_neg fun hne => hne rfl, htoken]

/-- The quote behind a backslash does not end a string. -/
theorem readStringToken_open (h : str.getLast? = some backslash) (rest : Bytes) :
    ReadStringToken (WriteString str ++ rest) =
      (WriteString str ++ (scanString quote rest).1, (scanString quote rest).2) := by
  obtain ⟨last, hlast, hscan⟩ := scan_body str quote
  have hopen : last = backslash := hlast.mpr (by rw [h, Option.getD_some])
  have htoken := hscan (quote :: rest)
  have hend : scanString last (quote :: rest) =
      (quote :: (scanString quote rest).1, (scanString quote rest).2) :=
    if_neg fun hclosed => hclosed.2 hopen
  rw [hend] at htoken
  rw [WriteString, List.cons_append, List.append_assoc, List.singleton_append, ReadStringToken,
    if_neg fun hne => hne rfl, htoken]
  simp

theorem unescapeString_written (str : Bytes) :
    UnescapeString (WriteString str) = some (str.map misread) := by
  have hbody := unescape_body str []
  rw [List.append_nil] at hbody
  have hlength : ¬ (WriteString str).length < 2 := by simp [WriteString]
  rw [UnescapeString, if_neg hlength, WriteString, List.tail_cons, List.dropLast_concat, hbody]
  exact congrArg some (List.append_nil _)

example : UnescapeString (WriteString [97, quote, 61]) = some [97, backslash, 61] := by decide

/-- The quote that was to end it is in the string. -/
theorem unescapeString_open {t : Bytes} (h : t ≠ []) : UnescapeString (WriteString str ++ t) =
    (unescape t.dropLast).map (str.map misread ++ quote :: ·) := by
  have hlength : ¬ (WriteString str ++ t).length < 2 := by
    rw [WriteString, List.length_append, List.length_cons, List.length_append,
      List.length_singleton]
    omega
  have hquote : unescape (quote :: t.dropLast) = (unescape t.dropLast).map (quote :: ·) :=
    unescape_cons (by decide) _
  rw [UnescapeString, if_neg hlength, WriteString, List.cons_append, List.tail_cons,
    List.append_assoc, List.singleton_append, List.dropLast_append_of_ne_nil (List.cons_ne_nil _ _),
    List.dropLast_cons_of_ne_nil h, unescape_body, hquote, Option.map_map]
  rfl

end Written

end SparxRobot.NetworkTables

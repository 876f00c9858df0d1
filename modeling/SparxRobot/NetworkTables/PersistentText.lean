import Mathlib.Data.List.DropRight
import SparxRobot.Codec.Base64
import SparxRobot.NetworkTables.QuotedText

/-! The text that persistent entries are kept in: one line for each. -/
namespace SparxRobot.NetworkTables
open Codec

def ascii (text : String) : Bytes := text.toList.map Char.toUInt8

/-- How the standard library writes a double, and what it reads in a text. None is a text that is
not converted to its end. -/
structure DoubleText where
  put : Double → Bytes
  strtod : Bytes → Option Double
  put_ne_nil : ∀ d, put d ≠ []
  put_chars : ∀ d, ∀ c ∈ put d,
    48 ≤ c ∧ c ≤ 57 ∨ 65 ≤ c ∧ c ≤ 90 ∨ 97 ≤ c ∧ c ≤ 122 ∨ c ∈ [43, 45, 46]
  strtod_put : ∀ d, (strtod (put d)).isSome

section Writing

variable (text : DoubleText)

/-- None is a type that is not saved. -/
def typeText : NT_Type → Option Bytes
  | .NT_BOOLEAN => some (ascii "boolean ")
  | .NT_DOUBLE => some (ascii "double ")
  | .NT_STRING => some (ascii "string ")
  | .NT_RAW => some (ascii "raw ")
  | .NT_BOOLEAN_ARRAY => some (ascii "array boolean ")
  | .NT_DOUBLE_ARRAY => some (ascii "array double ")
  | .NT_STRING_ARRAY => some (ascii "array string ")
  | _ => none

def boolText (b : Bool) : Bytes := ascii (if b then "true" else "false")

def commaSeparated : List Bytes → Bytes
  | [] => []
  | [elem] => elem
  | elem :: next :: elems => elem ++ 44 :: commaSeparated (next :: elems)

def valueText : Value → Bytes
  | .boolean b => boolText b
  | .double d => text.put d
  | .string s => WriteString s
  | .raw s => Base64Encode s
  | .booleanArray v => commaSeparated (v.map fun elem => boolText (elem ≠ 0))
  | .doubleArray v => commaSeparated (v.map text.put)
  | .stringArray v => commaSeparated (v.map WriteString)
  | _ => []

/-- The line of an entry, without its end. -/
def lineText (name : Bytes) (v : Value) : Option Bytes :=
  (typeText v.type).map fun type => type ++ WriteString name ++ 61 :: valueText text v

def header : Bytes := ascii "[NetworkTables Storage 3.0]"

/-- An entry without a value is left out. -/
def entryText (p : Bytes × Option Value) : Bytes :=
  match p.2.bind (lineText text p.1) with
  | none => []
  | some line => line ++ [10]

def SavePersistentImpl (entries : List (Bytes × Option Value)) : Bytes :=
  header ++ 10 :: entries.flatMap (entryText text)

end Writing

section Reading

/-- A text cut at every separator. Behind the last one there is a piece only if it is not empty. -/
def pieces (separator : UInt8) : Bytes → List Bytes
  | [] => []
  | c :: s =>
      if c = separator then [] :: pieces separator s
      else match pieces separator s with
        | [] => [[c]]
        | piece :: rest => (c :: piece) :: rest

def split (separator : UInt8) (s : Bytes) : Bytes × Bytes :=
  (s.takeWhile (· ≠ separator), (s.dropWhile (· ≠ separator)).drop 1)

def ltrim (chars s : Bytes) : Bytes := s.dropWhile (· ∈ chars)

def trim (chars s : Bytes) : Bytes := (ltrim chars s).rdropWhile (· ∈ chars)

def whitespace : Bytes := [32, 9, 10, 11, 12, 13]

def blanks : Bytes := [32, 9]

/-- A value, a warning, or without a text what is undefined. -/
abbrev Reading := Except (Option String)

variable (text : DoubleText)

/-- The type, and the line behind it. -/
def readType (line : Bytes) : NT_Type × Bytes :=
  let (type_tok, line) := split 32 line
  if type_tok = ascii "boolean" then (.NT_BOOLEAN, line)
  else if type_tok = ascii "double" then (.NT_DOUBLE, line)
  else if type_tok = ascii "string" then (.NT_STRING, line)
  else if type_tok = ascii "raw" then (.NT_RAW, line)
  else if type_tok = ascii "array" then
    let (array_tok, line) := split 32 line
    if array_tok = ascii "boolean" then (.NT_BOOLEAN_ARRAY, line)
    else if array_tok = ascii "double" then (.NT_DOUBLE_ARRAY, line)
    else if array_tok = ascii "string" then (.NT_STRING_ARRAY, line)
    else (.NT_UNASSIGNED, line)
  else (.NT_UNASSIGNED, line)

/-- A string, and the line behind it. -/
def readString (missing unterminated : String) (line : Bytes) : Reading (Bytes × Bytes) :=
  let (tok, line) := ReadStringToken line
  if tok = [] then throw (some missing)
  else if tok.getLast? ≠ some quote then throw (some unterminated)
  else match UnescapeString tok with
    | none => throw none
    | some str => return (str, line)

def readBoolean (line : Bytes) : Reading Bool :=
  if line = ascii "true" then return true
  else if line = ascii "false" then return false
  else throw (some "unrecognized boolean value, not 'true' or 'false'")

def readDouble (line : Bytes) : Reading Double :=
  match text.strtod line with
  | none => throw (some "invalid double value")
  | some d => return d

theorem readString_eq_ok {missing unterminated : String} {line str rest : Bytes} :
    readString missing unterminated line = .ok (str, rest) ↔ ∃ tok,
      ReadStringToken line = (tok, rest) ∧ tok.getLast? = some quote ∧
        UnescapeString tok = some str := by
  obtain ⟨tok, tail, htoken⟩ : ∃ tok tail, ReadStringToken line = (tok, tail) := ⟨_, _, rfl⟩
  unfold readString
  rw [htoken]
  constructor
  · intro h
    dsimp only at h
    split at h
    · cases h
    split at h
    · cases h
    split at h
    · cases h
    · next hne hlast _ s hs =>
      obtain ⟨rfl, rfl⟩ := Prod.mk.inj (Except.ok.inj h)
      exact ⟨tok, rfl, not_not.mp hlast, hs⟩
  · rintro ⟨tok', heq, hlast, hs⟩
    obtain ⟨rfl, rfl⟩ := Prod.mk.inj heq
    have hne : tok ≠ [] := by
      rintro rfl
      cases hlast
    dsimp only
    rw [if_neg hne, if_neg (not_not.mpr hlast), hs]
    rfl

theorem length_readString {missing unterminated : String} {line str rest : Bytes}
    (h : readString missing unterminated line = .ok (str, rest)) : rest.length < line.length := by
  obtain ⟨tok, htoken, hlast, -⟩ := readString_eq_ok.mp h
  have hline := readStringToken_append line
  rw [htoken] at hline
  have hlength := congrArg List.length hline
  rw [List.length_append] at hlength
  have hpos : 0 < tok.length := by
    rw [List.length_pos_iff]
    rintro rfl
    cases hlast
  dsimp only at hlength
  omega

theorem length_ltrim (chars s : Bytes) : (ltrim chars s).length ≤ s.length :=
  (List.dropWhile_suffix _).length_le

/-- Strings with commas between them. -/
def readStrings (line : Bytes) : Reading (List Bytes) :=
  if line = [] then return []
  else match _ : readString "missing string value" "unterminated string value" line with
    | .error e => throw e
    | .ok (str, rest) => match _ : ltrim blanks rest with
        | [] => return [str]
        | c :: rest =>
            if c ≠ 44 then throw (some "expected comma between strings")
            else do return str :: (← readStrings (ltrim blanks rest))
termination_by line.length
decreasing_by
  have hstring := length_readString ‹readString _ _ line = .ok (str, _)›
  have hle := congrArg List.length ‹ltrim blanks _ = c :: rest›
  have htrimmed := length_ltrim blanks rest
  have hrest := length_ltrim blanks
  grind

def readValue (type : NT_Type) (line : Bytes) : Reading (Option Value) :=
  match type with
  | .NT_BOOLEAN => do return some (.boolean (← readBoolean line))
  | .NT_DOUBLE => do return some (.double (← readDouble text line))
  | .NT_STRING => do
      return some (.string (← readString "missing string value" "unterminated string value" line).1)
  | .NT_RAW => return some (.raw (Base64Decode line))
  | .NT_BOOLEAN_ARRAY => do
      let elems ← (pieces 44 line).mapM fun elem_tok => readBoolean (trim blanks elem_tok)
      return some (.booleanArray (elems.map fun elem => if elem then 1 else 0))
  | .NT_DOUBLE_ARRAY => do
      return some (.doubleArray
        (← (pieces 44 line).mapM fun elem_tok => readDouble text (trim blanks elem_tok)))
  | .NT_STRING_ARRAY => do return some (.stringArray (← readStrings line))
  | _ => return none

/-- A blank line or a comment. -/
def skipped (line : Bytes) : Bool := line.head?.all fun c => c = 59 ∨ c = 35

/-- An entry, or none. -/
def readLine (line : Bytes) : Reading (Option (Bytes × Value)) :=
  if skipped line then return none
  else
    let (type, line) := readType line
    if type = .NT_UNASSIGNED then throw (some "unrecognized type")
    else do
      let (name, line) ← readString "missing name" "unterminated name string" line
      let line := ltrim blanks line
      if line.head? ≠ some 61 then throw (some "expected = after name")
      else
        let value ← readValue text type (ltrim blanks line.tail)
        return if name = [] then none else value.map fun value => (name, value)

/-- The entries, and the warnings with the numbers of their lines. -/
def readLines (line_num : ℕ) :
    List Bytes → Option (List (Bytes × Value) × List (ℕ × String))
  | [] => some ([], [])
  | line :: lines =>
      match readLine text (trim whitespace line) with
      | .error none => none
      | .error (some msg) => (readLines (line_num + 1) lines).map fun (entries, warnings) =>
          (entries, (line_num, msg) :: warnings)
      | .ok entry => (readLines (line_num + 1) lines).map fun (entries, warnings) =>
          (entry.toList ++ entries, warnings)

/-- What is read of a file before any of it is stored. -/
def readPersistent (file : Bytes) : Option (Bool × List (Bytes × Value) × List (ℕ × String)) :=
  match (pieces 10 file).dropWhile fun line => skipped (trim whitespace line) with
  | [] => some (false, [], [(1, "header line mismatch, ignoring rest of file")])
  | line :: lines =>
      if line = header then
        (readLines text 2 lines).map fun (entries, warnings) => (true, entries, warnings)
      else some (false, [], [(1, "header line mismatch, ignoring rest of file")])

end Reading

end SparxRobot.NetworkTables

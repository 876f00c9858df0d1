import Mathlib.Data.Int.Order.Basic
import Mathlib.Data.List.DropRight

/-! What the robot uses of Java's text classes: the lines of a reader, `String.split` at a
single character, and `Integer.parseInt`. -/
namespace SparxRobot.Java

/-- What `BufferedReader.readLine` returns, call by call, before it returns null. `acc` holds
the characters of the line so far, the latest one first. -/
def linesFrom (acc : List Char) : List Char → List (List Char)
  | [] => if acc = [] then [] else [acc.reverse]
  | '\n' :: cs => acc.reverse :: linesFrom [] cs
  | '\r' :: '\n' :: cs => acc.reverse :: linesFrom [] cs
  | '\r' :: cs => acc.reverse :: linesFrom [] cs
  | c :: cs => linesFrom (c :: acc) cs

def lines (text : List Char) : List (List Char) := linesFrom [] text

/-- `split`: empty strings at the end are left out, unless there is nothing to split. -/
def split (separator : Char) (s : List Char) : List (List Char) :=
  if separator ∈ s then (s.splitOn separator).rdropWhile (·.isEmpty) else [s]

/-- The zeros of the decimal digits of Unicode that are one `char`. -/
def digitZeros : List ℕ :=
  [0x30, 0x660, 0x6f0, 0x7c0, 0x966, 0x9e6, 0xa66, 0xae6, 0xb66, 0xbe6, 0xc66, 0xce6, 0xd66,
    0xe50, 0xed0, 0xf20, 0x1040, 0x1090, 0x17e0, 0x1810, 0x1946, 0x19d0, 0x1a80, 0x1a90, 0x1b50,
    0x1bb0, 0x1c40, 0x1c50, 0xa620, 0xa8d0, 0xa900, 0xa9d0, 0xaa50, 0xabf0, 0xff10]

/-- `Character.digit` in base ten. -/
def digit (c : Char) : Option ℕ :=
  (digitZeros.find? fun base => base ≤ c.toNat ∧ c.toNat < base + 10).map (c.toNat - ·)

/-- `Integer.parseInt`; none is a `NumberFormatException`. -/
def parseInt (s : List Char) : Option Int32 :=
  let negative := s.head? = some '-'
  let digits := if negative ∨ s.head? = some '+' then s.tail else s
  if digits = [] then none
  else
    (digits.mapM digit).bind fun ds =>
      let magnitude : ℤ := (ds.foldl (fun value d => 10 * value + d) 0 : ℕ)
      let value := if negative then -magnitude else magnitude
      if -2147483648 ≤ value ∧ value ≤ 2147483647 then some (Int32.ofInt value) else none

example : parseInt "-2147483648".toList = some (-2147483648) ∧ parseInt "2147483648".toList = none ∧
    parseInt "+7".toList = some 7 ∧ parseInt "-".toList = none := by decide

example : split ',' ",1,,".toList = ["".toList, "1".toList] ∧ split ',' ",".toList = [] ∧
    lines "a\r\n\rb".toList = ["a".toList, [], "b".toList] := by decide

end SparxRobot.Java

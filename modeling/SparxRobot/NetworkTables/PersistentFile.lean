import SparxRobot.NetworkTables.PersistentText

/-! What comes back of a file that was saved. -/
namespace SparxRobot.NetworkTables
open Codec

section Texts

variable {s t : Bytes} {separator : UInt8} {elems : List Bytes}

/-- A text that stays in its line and is not trimmed. -/
structure Clean (s : Bytes) : Prop where
  newline : 10 ∉ s
  head : ∀ c ∈ s.head?, c ∉ whitespace
  last : ∀ c ∈ s.getLast?, c ∉ whitespace

theorem clean_of_forall (h : ∀ c ∈ s, c ∉ whitespace) : Clean s :=
  ⟨fun hmem => h 10 hmem (by decide), fun c hc => h c (List.mem_of_head? hc),
    fun c hc => h c (List.mem_of_getLast? hc)⟩

theorem clean_of_all (h : (s.all fun c => c ∉ whitespace) = true) : Clean s :=
  clean_of_forall fun c hc => by simpa using List.all_eq_true.mp h c hc

theorem mem_whitespace_of_blanks {c : UInt8} (h : c ∈ blanks) : c ∈ whitespace := by
  simp only [blanks, whitespace, List.mem_cons] at h ⊢
  tauto

theorem Clean.append (hnewline : 10 ∉ s) (hhead : ∀ c ∈ s.head?, c ∉ whitespace) (ht : Clean t)
    (hne : s ≠ []) (hne' : t ≠ []) : Clean (s ++ t) := by
  refine ⟨fun hmem => ?_, fun c hc => hhead c ?_, fun c hc => ht.last c ?_⟩
  · exact (List.mem_append.mp hmem).elim hnewline ht.newline
  · rwa [List.head?_append_of_ne_nil _ hne] at hc
  · rwa [List.getLast?_append_of_ne_nil _ hne'] at hc

theorem ltrim_of_head {chars : Bytes} (h : ∀ c ∈ s.head?, c ∉ chars) : ltrim chars s = s := by
  cases s with
  | nil => rfl
  | cons c s =>
    have hc := h c rfl
    exact List.dropWhile_cons_of_neg (by simpa using hc)

theorem Clean.trim (h : Clean s) {chars : Bytes} (hsub : ∀ c ∈ chars, c ∈ whitespace) :
    trim chars s = s := by
  have hltrim : ltrim chars s = s := ltrim_of_head fun c hc hmem => h.head c hc (hsub c hmem)
  rw [NetworkTables.trim, hltrim, List.rdropWhile_eq_self_iff]
  intro hne hlast
  have hmem : s.getLast hne ∈ chars := by simpa using hlast
  exact h.last _ (List.getLast?_eq_getLast_of_ne_nil hne) (hsub _ hmem)

theorem Clean.ltrim (h : Clean s) : ltrim blanks s = s :=
  ltrim_of_head fun c hc hmem => h.head c hc (mem_whitespace_of_blanks hmem)

theorem pieces_append (h : separator ∉ s) (rest : Bytes) :
    pieces separator (s ++ separator :: rest) = s :: pieces separator rest := by
  induction s with
  | nil => exact if_pos rfl
  | cons c s ih =>
    rw [List.mem_cons, not_or] at h
    rw [List.cons_append, pieces, if_neg (Ne.symm h.1), ih h.2]

theorem pieces_self (h : separator ∉ s) (hne : s ≠ []) : pieces separator s = [s] := by
  induction s with
  | nil => exact absurd rfl hne
  | cons c s ih =>
    rw [List.mem_cons, not_or] at h
    rw [pieces, if_neg (Ne.symm h.1)]
    cases s with
    | nil => rfl
    | cons d s => rw [ih h.2 (List.cons_ne_nil d s)]

theorem pieces_commaSeparated (h : ∀ elem ∈ elems, 44 ∉ elem ∧ elem ≠ []) :
    pieces 44 (commaSeparated elems) = elems := by
  induction elems with
  | nil => rfl
  | cons elem elems ih =>
    obtain ⟨⟨hcomma, hne⟩, h⟩ := List.forall_mem_cons.mp h
    cases elems with
    | nil => exact pieces_self hcomma hne
    | cons next elems => rw [commaSeparated, pieces_append hcomma, ih h]

theorem clean_commaSeparated (h : ∀ elem ∈ elems, Clean elem ∧ elem ≠ []) :
    Clean (commaSeparated elems) := by
  have hcomma : Clean [44] := clean_of_all (by decide)
  induction elems with
  | nil => exact clean_of_forall (by simp [commaSeparated])
  | cons elem elems ih =>
    obtain ⟨⟨hclean, hne⟩, h⟩ := List.forall_mem_cons.mp h
    cases elems with
    | nil => exact hclean
    | cons next elems =>
      have hrest := ih h
      have hrest_ne : commaSeparated (next :: elems) ≠ [] := by
        obtain ⟨⟨-, hnext⟩, -⟩ := List.forall_mem_cons.mp h
        cases elems with
        | nil => exact hnext
        | cons => exact List.append_ne_nil_of_left_ne_nil hnext _
      have hbehind := Clean.append hcomma.newline hcomma.head hrest (List.cons_ne_nil _ _) hrest_ne
      exact Clean.append hclean.newline hclean.head hbehind hne (List.cons_ne_nil _ _)

theorem clean_elements {α : Type} {write : α → Bytes} (h : ∀ a, Clean (write a) ∧ write a ≠ [])
    (l : List α) : Clean (commaSeparated (l.map write)) := by
  refine clean_commaSeparated fun elem helem => ?_
  obtain ⟨a, -, rfl⟩ := List.mem_map.mp helem
  exact h a

end Texts

section Values

variable {s name : Bytes} {c : UInt8}

theorem newline_notMem_escape (c : UInt8) : 10 ∉ escape c := by
  have hdigit : ∀ h : UInt8, isxdigit h → h ≠ 10 := by
    rintro h hh rfl
    exact absurd hh (by decide)
  obtain ⟨hhigh, hlow, -⟩ := hexdigits c
  unfold escape
  split_ifs with _ _ _ _ hprint
  · decide
  · decide
  · decide
  · decide
  · rw [List.mem_singleton]
    rintro rfl
    exact absurd hprint.1 (by decide)
  · simp [backslash, (hdigit _ hhigh).symm, (hdigit _ hlow).symm]

theorem clean_writeString (s : Bytes) : Clean (WriteString s) := by
  have hquote : quote ∉ whitespace := by decide
  refine ⟨fun hmem => ?_, fun c hc => ?_, fun c hc => ?_⟩
  · rw [WriteString, List.mem_cons, List.mem_append, List.mem_singleton, List.mem_flatMap] at hmem
    obtain heq | ⟨c, -, hc⟩ | heq := hmem
    · exact absurd heq (by decide)
    · exact newline_notMem_escape c hc
    · exact absurd heq (by decide)
  · obtain rfl := Option.some.inj hc
    exact hquote
  · rw [WriteString, ← List.cons_append, List.getLast?_concat] at hc
    obtain rfl := Option.some.inj hc
    exact hquote

theorem writeString_ne_nil (s : Bytes) : WriteString s ≠ [] := List.cons_ne_nil _ _

theorem basis_of_lt : ∀ n : Fin 64, basis (UInt8.ofNat n) ∉ whitespace := by decide +kernel

theorem clean_base64Encode (s : Bytes) : Clean (Base64Encode s) := by
  obtain ⟨k, hk⟩ := base64Encode_eq s
  refine clean_of_forall fun c hc => ?_
  rw [hk, List.mem_append, List.mem_map] at hc
  obtain ⟨n, hn, rfl⟩ | hpad := hc
  · have hbasis := basis_of_lt ⟨n.toNat, sixes_lt s n hn⟩
    rwa [UInt8.ofNat_toNat] at hbasis
  · rw [List.eq_of_mem_replicate hpad]
    decide

theorem clean_boolText (b : Bool) : Clean (boolText b) ∧ boolText b ≠ [] ∧ 44 ∉ boolText b := by
  cases b with
  | false => exact ⟨clean_of_all (by decide), by decide, by decide⟩
  | true => exact ⟨clean_of_all (by decide), by decide, by decide⟩

theorem clean_put (text : DoubleText) (d : Double) : Clean (text.put d) ∧ 44 ∉ text.put d := by
  constructor
  · refine clean_of_forall fun c hc hmem => ?_
    have hchar := text.put_chars d c hc
    simp only [whitespace, List.mem_cons, List.not_mem_nil, or_false] at hmem
    obtain rfl | rfl | rfl | rfl | rfl | rfl := hmem <;> exact absurd hchar (by decide)
  · intro hmem
    exact absurd (text.put_chars d 44 hmem) (by decide)

theorem clean_valueText (text : DoubleText) (v : Value) : Clean (valueText text v) := by
  have hnil : Clean [] := clean_of_forall (List.forall_mem_nil _)
  unfold valueText
  split
  · exact (clean_boolText _).1
  · exact (clean_put text _).1
  · exact clean_writeString _
  · exact clean_base64Encode _
  · exact clean_elements (fun elem => ⟨(clean_boolText _).1, (clean_boolText _).2.1⟩) _
  · exact clean_elements (fun elem => ⟨(clean_put text elem).1, text.put_ne_nil elem⟩) _
  · exact clean_elements (fun elem => ⟨clean_writeString elem, writeString_ne_nil elem⟩) _
  · exact hnil

end Values

section Strings

variable {str rest : Bytes} {missing unterminated : String} {v : List Bytes}

theorem map_misread (str : Bytes) : str.map misread = str ↔ quote ∉ str := by
  constructor
  · intro heq hmem
    rw [← heq] at hmem
    obtain ⟨c, -, hc⟩ := List.mem_map.mp hmem
    unfold misread at hc
    split at hc
    · exact absurd hc (by decide)
    · next hne => exact hne hc
  · intro hnot
    refine (List.map_congr_left fun c hc => ?_).trans (List.map_id' str)
    refine if_neg ?_
    rintro rfl
    exact hnot hc

theorem getLast?_writeString (str : Bytes) : (WriteString str).getLast? = some quote := by
  rw [WriteString, ← List.cons_append, List.getLast?_concat]

/-- What ends in a backslash is read if nothing is behind it. -/
theorem readString_written (h : str.getLast? ≠ some backslash ∨ rest = []) :
    readString missing unterminated (WriteString str ++ rest) = .ok (str.map misread, rest) := by
  rw [readString_eq_ok]
  refine ⟨WriteString str, ?_, getLast?_writeString str, unescapeString_written str⟩
  by_cases hlast : str.getLast? = some backslash
  · obtain rfl := h.resolve_left (not_not.mpr hlast)
    rw [readStringToken_open hlast, scanString, List.append_nil]
  · exact readStringToken_written hlast rest

/-- Otherwise it is not read as it was, whatever is behind it. -/
theorem readString_open (hlast : str.getLast? = some backslash) (hrest : rest ≠ [])
    {str' rest' : Bytes}
    (h : readString missing unterminated (WriteString str ++ rest) = .ok (str', rest')) :
    str' ≠ str := by
  obtain ⟨tok, htoken, -, hunescape⟩ := readString_eq_ok.mp h
  rw [readStringToken_open hlast] at htoken
  obtain ⟨rfl, -⟩ := Prod.mk.inj htoken
  have hne : (scanString quote rest).1 ≠ [] := by
    obtain ⟨c, rest, rfl⟩ := List.exists_cons_of_ne_nil hrest
    unfold scanString
    split <;> exact List.cons_ne_nil _ _
  rw [unescapeString_open hne] at hunescape
  obtain ⟨u, -, rfl⟩ := Option.map_eq_some_iff.mp hunescape
  intro heq
  have hlength := congrArg List.length heq
  rw [List.length_append, List.length_map, List.length_cons] at hlength
  omega

theorem readStrings_nil : readStrings [] = .ok [] := by
  rw [readStrings, if_pos rfl]
  rfl

theorem readStrings_error {line : Bytes} {e : Option String} (hne : line ≠ [])
    (h : readString "missing string value" "unterminated string value" line = .error e) :
    readStrings line = .error e := by
  rw [readStrings, if_neg hne]
  split
  · next e' he' => rw [← Except.error.inj (h.symm.trans he')]; rfl
  · next hok => rw [h] at hok; cases hok

theorem readStrings_cons {line : Bytes} (hne : line ≠ [])
    (h : readString "missing string value" "unterminated string value" line = .ok (str, rest)) :
    readStrings line = match ltrim blanks rest with
      | [] => .ok [str]
      | c :: rest =>
          if c ≠ 44 then .error (some "expected comma between strings")
          else (readStrings (ltrim blanks rest)).map (str :: ·) := by
  rw [readStrings, if_neg hne]
  split
  · next herror => rw [h] at herror; cases herror
  · next str' rest' hok =>
    obtain ⟨rfl, rfl⟩ := Prod.mk.inj (Except.ok.inj (h.symm.trans hok))
    split
    · next hnil => rw [hnil]; rfl
    · next c rest' hcons =>
      rw [hcons]
      dsimp only
      split
      · rfl
      · cases readStrings (ltrim blanks rest') <;> rfl

theorem readStrings_head {line : Bytes} {l : List Bytes} (hne : line ≠ [])
    (h : readStrings line = .ok l) : ∃ str rest,
      readString "missing string value" "unterminated string value" line = .ok (str, rest) ∧
        l.head? = some str := by
  cases hread : readString "missing string value" "unterminated string value" line with
  | error e =>
    rw [readStrings_error hne hread] at h
    cases h
  | ok p =>
    obtain ⟨str, rest⟩ := p
    refine ⟨str, rest, rfl, ?_⟩
    rw [readStrings_cons hne hread] at h
    split at h
    · rw [← Except.ok.inj h, List.head?_cons]
    · split at h
      · cases h
      · next c rest' _ _ =>
        cases hrest : readStrings (ltrim blanks rest') with
        | error e => rw [hrest] at h; cases h
        | ok l' =>
          rw [hrest] at h
          rw [← Except.ok.inj h, List.head?_cons]

theorem readStrings_comma {next : Bytes} (hlast : str.getLast? ≠ some backslash) :
    readStrings (WriteString str ++ 44 :: commaSeparated ((next :: v).map WriteString)) =
      (readStrings (commaSeparated ((next :: v).map WriteString))).map (str.map misread :: ·) := by
  have hread := @readString_written str (44 :: commaSeparated ((next :: v).map WriteString))
    "missing string value" "unterminated string value" (.inl hlast)
  have hcomma : ltrim blanks (44 :: commaSeparated ((next :: v).map WriteString)) =
      44 :: commaSeparated ((next :: v).map WriteString) := ltrim_of_head (by simp [blanks])
  have hclean : Clean (commaSeparated ((next :: v).map WriteString)) :=
    clean_elements (fun elem => ⟨clean_writeString elem, writeString_ne_nil elem⟩) _
  rw [readStrings_cons (List.append_ne_nil_of_left_ne_nil (writeString_ne_nil str) _) hread, hcomma]
  dsimp only
  rw [if_neg fun hne => hne rfl, hclean.ltrim]

/-- An array is read as it was written when no string in it has a quote, and none but the last
ends in a backslash. -/
theorem readStrings_written : readStrings (commaSeparated (v.map WriteString)) = .ok v ↔
    (∀ str ∈ v, quote ∉ str) ∧ ∀ str ∈ v.dropLast, str.getLast? ≠ some backslash := by
  induction v with
  | nil => exact iff_of_true readStrings_nil ⟨List.forall_mem_nil _, List.forall_mem_nil _⟩
  | cons str v ih =>
    cases v with
    | nil =>
      have hread := @readString_written str [] "missing string value" "unterminated string value"
        (.inr rfl)
      rw [List.append_nil] at hread
      have hnil : ltrim blanks [] = [] := rfl
      rw [List.map_singleton, commaSeparated, readStrings_cons (writeString_ne_nil str) hread, hnil]
      simp [map_misread]
    | cons next v =>
      have hdrop : (str :: next :: v).dropLast = str :: (next :: v).dropLast := rfl
      have hline : commaSeparated ((str :: next :: v).map WriteString) =
          WriteString str ++ 44 :: commaSeparated ((next :: v).map WriteString) := rfl
      rw [hdrop, hline, @List.forall_mem_cons _ _ str, @List.forall_mem_cons _ _ str]
      by_cases hlast : str.getLast? = some backslash
      · refine iff_of_false (fun hok => ?_) fun h => h.2.1 hlast
        obtain ⟨str', rest, hread, hhead⟩ := readStrings_head
          (List.append_ne_nil_of_left_ne_nil (writeString_ne_nil str) _) hok
        exact readString_open hlast (List.cons_ne_nil _ _) hread (Option.some.inj hhead).symm
      · rw [readStrings_comma hlast, and_and_and_comm, ← map_misread str, and_iff_left hlast, ← ih]
        cases readStrings (commaSeparated ((next :: v).map WriteString)) with
        | error e => exact iff_of_false (fun hok => by cases hok) fun h => by cases h.2
        | ok l => simp [Except.map]

end Strings

section Lines

variable (text : DoubleText)

/-- A double as it is read again. -/
def rewritten (d : Double) : Double := (text.strtod (text.put d)).getD d

/-- A value as it is read again. The elements of a boolean array are 0 and 1. -/
def reread : Value → Value
  | .double d => .double (rewritten text d)
  | .booleanArray v => .booleanArray (v.map fun elem => if elem ≠ 0 then 1 else 0)
  | .doubleArray v => .doubleArray (v.map (rewritten text))
  | v => v

/-- The strings of a value can be read again. -/
def Restorable : Value → Prop
  | .string s => quote ∉ s
  | .stringArray v =>
      (∀ str ∈ v, quote ∉ str) ∧ ∀ str ∈ v.dropLast, str.getLast? ≠ some backslash
  | _ => True

variable {text} {name : Bytes} {v : Value}

theorem readBoolean_boolText (b : Bool) : readBoolean (boolText b) = .ok b := by
  cases b with
  | false => exact (if_neg (by decide)).trans (if_pos rfl)
  | true => exact if_pos rfl

theorem readDouble_put (d : Double) : readDouble text (text.put d) = .ok (rewritten text d) := by
  obtain ⟨d', hd'⟩ := Option.isSome_iff_exists.mp (text.strtod_put d)
  rw [readDouble, rewritten, hd']
  rfl

theorem mapM_written {α β : Type} {write : α → Bytes} {read : Bytes → Reading β} {back : α → β}
    (h : ∀ a, read (write a) = .ok (back a)) (l : List α) :
    (l.map write).mapM read = .ok (l.map back) := by
  induction l with
  | nil => rfl
  | cons a l ih =>
    rw [List.map_cons, List.mapM_cons, h, ih]
    rfl

/-- The elements of an array of numbers are found again. -/
theorem readArray_written {α β : Type} {write : α → Bytes} {read : Bytes → Reading β} {back : α → β}
    (hclean : ∀ a, Clean (write a) ∧ write a ≠ [] ∧ 44 ∉ write a)
    (h : ∀ a, read (write a) = .ok (back a)) (l : List α) :
    (pieces 44 (commaSeparated (l.map write))).mapM (fun tok => read (trim blanks tok)) =
      .ok (l.map back) := by
  have hpieces : pieces 44 (commaSeparated (l.map write)) = l.map write := by
    refine pieces_commaSeparated fun elem helem => ?_
    obtain ⟨a, -, rfl⟩ := List.mem_map.mp helem
    exact ⟨(hclean a).2.2, (hclean a).2.1⟩
  rw [hpieces]
  refine mapM_written (fun a => ?_) l
  rw [(hclean a).1.trim fun c hc => mem_whitespace_of_blanks hc, h]

/-- A value is read as it was written when its strings allow it. -/
theorem readValue_written (hsaved : (typeText v.type).isSome) :
    readValue text v.type (valueText text v) = .ok (some (reread text v)) ↔ Restorable v := by
  cases v with
  | unassigned => exact absurd hsaved Bool.false_ne_true
  | rpc s => exact absurd hsaved Bool.false_ne_true
  | boolean b =>
    refine iff_of_true ?_ trivial
    rw [valueText, Value.type, readValue, readBoolean_boolText]
    rfl
  | double d =>
    refine iff_of_true ?_ trivial
    rw [valueText, Value.type, readValue, readDouble_put]
    rfl
  | raw s =>
    refine iff_of_true ?_ trivial
    rw [valueText, Value.type, readValue, base64Decode_encode]
    rfl
  | booleanArray v =>
    refine iff_of_true ?_ trivial
    rw [valueText, Value.type, readValue,
      @readArray_written _ _ (fun elem : Int32 => boolText (elem ≠ 0)) readBoolean
        (fun elem => decide (elem ≠ 0)) (fun a => clean_boolText _) fun a => readBoolean_boolText _]
    simp [reread, bind, Except.bind, pure, Except.pure]
  | doubleArray v =>
    refine iff_of_true ?_ trivial
    rw [valueText, Value.type, readValue, @readArray_written _ _ text.put (readDouble text)
      (rewritten text) (fun a => ⟨(clean_put text a).1, text.put_ne_nil a, (clean_put text a).2⟩)
      readDouble_put]
    rfl
  | string s =>
    have hread := @readString_written s [] "missing string value" "unterminated string value"
      (.inr rfl)
    rw [List.append_nil] at hread
    rw [valueText, Value.type, readValue, hread, Restorable, ← map_misread]
    simp [reread, bind, Except.bind, pure, Except.pure]
  | stringArray v =>
    rw [valueText, Value.type, readValue, Restorable, ← readStrings_written]
    cases readStrings (commaSeparated (v.map WriteString)) with
    | error e => exact iff_of_false (fun hok => by cases hok) fun hok => by cases hok
    | ok l => simp [reread, bind, Except.bind, pure, Except.pure]

theorem readType_typeText {type : NT_Type} {t : Bytes} (h : typeText type = some t) (rest : Bytes) :
    readType (t ++ rest) = (type, rest) := by
  cases type <;> cases h <;> rfl

theorem typeText_ne_unassigned {type : NT_Type} {t : Bytes} (h : typeText type = some t) :
    type ≠ .NT_UNASSIGNED := by
  rintro rfl
  cases h

/-- A line is neither blank nor a comment, and stays as it is when it is trimmed. -/
theorem clean_lineText {line : Bytes} (h : lineText text name v = some line) :
    Clean line ∧ skipped line = false := by
  obtain ⟨t, ht, rfl⟩ := Option.map_eq_some_iff.mp h
  obtain ⟨htype, hall, hskip⟩ :
      10 ∉ t ∧ (t.head?.all fun c => c ∉ whitespace) = true ∧ skipped t = false := by
    cases htype : v.type <;> rw [htype] at ht <;> cases ht <;> decide
  have hhead : ∀ c ∈ t.head?, c ∉ whitespace := by
    intro c hc
    rw [Option.mem_def.mp hc, Option.all_some, decide_eq_true_iff] at hall
    exact hall
  have hne : t ≠ [] := by
    rintro rfl
    cases hskip
  have hvalue : Clean (61 :: valueText text v) := by
    have hequals : Clean [61] := clean_of_all (by decide)
    obtain hnil | hvalue := eq_or_ne (valueText text v) []
    · rw [hnil]
      exact hequals
    · exact Clean.append hequals.newline hequals.head (clean_valueText text v)
        (List.cons_ne_nil _ _) hvalue
  have hname := clean_writeString name
  have hbehind := Clean.append hname.newline hname.head hvalue (writeString_ne_nil name)
    (List.cons_ne_nil _ _)
  rw [List.append_assoc]
  refine ⟨Clean.append htype hhead hbehind hne (List.append_ne_nil_of_left_ne_nil
    (writeString_ne_nil name) _), ?_⟩
  rw [skipped, List.head?_append_of_ne_nil _ hne]
  exact hskip

/-- A line is read as it was written when its name has no quote, does not end in a backslash and
is not empty, and the strings of its value allow it. -/
theorem readLine_written {line : Bytes} (h : lineText text name v = some line) :
    readLine text line = .ok (some (name, reread text v)) ↔
      name ≠ [] ∧ quote ∉ name ∧ name.getLast? ≠ some backslash ∧ Restorable v := by
  have hskip := (clean_lineText h).2
  obtain ⟨t, ht, rfl⟩ := Option.map_eq_some_iff.mp h
  unfold readLine
  rw [hskip, if_neg Bool.false_ne_true, List.append_assoc, readType_typeText ht]
  dsimp only
  rw [if_neg (typeText_ne_unassigned ht)]
  by_cases hlast : name.getLast? = some backslash
  · refine iff_of_false (fun hok => ?_) fun h => h.2.2.1 hlast
    cases hread : readString "missing name" "unterminated name string"
        (WriteString name ++ 61 :: valueText text v) with
    | error e => rw [hread] at hok; cases hok
    | ok p =>
      obtain ⟨str, rest⟩ := p
      have hother := readString_open hlast (List.cons_ne_nil _ _) hread
      rw [hread] at hok
      dsimp only [bind, Except.bind] at hok
      split at hok
      · cases hok
      · cases hvalue : readValue text v.type (ltrim blanks (ltrim blanks rest).tail) with
        | error e => rw [hvalue] at hok; cases hok
        | ok value =>
          rw [hvalue] at hok
          have hsome := Except.ok.inj hok
          split at hsome
          · cases hsome
          · obtain ⟨value', -, heq⟩ := Option.map_eq_some_iff.mp hsome
            exact hother (Prod.mk.inj heq).1
  · have hread := @readString_written name (61 :: valueText text v) "missing name"
      "unterminated name string" (.inl hlast)
    have hequals : ltrim blanks (61 :: valueText text v) = 61 :: valueText text v :=
      ltrim_of_head (by simp [blanks])
    have hvalue := @readValue_written text v (by rw [ht]; rfl)
    rw [hread]
    dsimp only [bind, Except.bind]
    rw [hequals, if_neg fun hne => hne rfl, List.tail_cons, (clean_valueText text v).ltrim,
      ← hvalue, ← map_misread name]
    cases readValue text v.type (valueText text v) with
    | error e => exact iff_of_false (fun hok => by cases hok) fun h => by cases h.2.2.2
    | ok value =>
      cases name with
      | nil => exact iff_of_false (fun hok => by cases hok) fun h => h.1 rfl
      | cons c name =>
        cases value with
        | none => exact iff_of_false (fun hok => by cases hok) fun h => by cases h.2.2.2
        | some value => simp [pure, Except.pure, hlast]

end Lines

section Files

/-- The entries with a value of a type that is saved. -/
def saved (entries : List (Bytes × Option Value)) : List (Bytes × Value) :=
  entries.filterMap fun p => (p.2.filter fun v => (typeText v.type).isSome).map fun v => (p.1, v)

/-- What can be saved and is read again. -/
def Keepable (p : Bytes × Value) : Prop :=
  p.1 ≠ [] ∧ quote ∉ p.1 ∧ p.1.getLast? ≠ some backslash ∧ Restorable p.2

variable (text : DoubleText)

/-- The lines of a file behind its header. -/
def linesOf (entries : List (Bytes × Option Value)) : List Bytes :=
  entries.filterMap fun p => p.2.bind (lineText text p.1)

variable {text} {entries : List (Bytes × Option Value)} {name : Bytes} {value : Option Value}

/-- An entry has a line if it is saved. -/
theorem line_cases (text : DoubleText) (name : Bytes) (value : Option Value)
    (entries : List (Bytes × Option Value)) :
    (value.bind (lineText text name) = none ∧
        linesOf text ((name, value) :: entries) = linesOf text entries ∧
        saved ((name, value) :: entries) = saved entries) ∨
      ∃ v line, value = some v ∧ lineText text name v = some line ∧
        linesOf text ((name, value) :: entries) = line :: linesOf text entries ∧
        saved ((name, value) :: entries) = (name, v) :: saved entries := by
  unfold linesOf saved
  rw [List.filterMap_cons, List.filterMap_cons]
  cases value with
  | none => exact .inl ⟨rfl, rfl, rfl⟩
  | some v =>
    have hline : lineText text name v = (typeText v.type).map fun t =>
      t ++ WriteString name ++ 61 :: valueText text v := rfl
    rw [Option.bind_some, Option.filter_some]
    cases htype : typeText v.type with
    | none =>
      rw [htype, Option.map_none] at hline
      rw [hline]
      exact .inl ⟨rfl, rfl, rfl⟩
    | some t =>
      rw [htype, Option.map_some] at hline
      rw [hline]
      exact .inr ⟨v, _, rfl, hline, rfl, rfl⟩

theorem pieces_lines (entries : List (Bytes × Option Value)) :
    pieces 10 (entries.flatMap (entryText text)) = linesOf text entries := by
  induction entries with
  | nil => rfl
  | cons p entries ih =>
    obtain ⟨name, value⟩ := p
    rw [List.flatMap_cons, entryText]
    dsimp only
    obtain ⟨hnone, hlines, -⟩ | ⟨v, line, rfl, hline, hlines, -⟩ :=
      line_cases text name value entries
    · rw [hnone, hlines]
      exact ih
    · rw [Option.bind_some, hline, hlines]
      dsimp only
      rw [List.append_assoc, List.singleton_append, pieces_append (clean_lineText hline).1.newline,
        ih]

theorem length_linesOf (entries : List (Bytes × Option Value)) :
    (linesOf text entries).length = (saved entries).length := by
  induction entries with
  | nil => rfl
  | cons p entries ih =>
    obtain ⟨name, value⟩ := p
    obtain ⟨-, hlines, hsaved⟩ | ⟨v, line, -, -, hlines, hsaved⟩ :=
      line_cases text name value entries
    · rw [hlines, hsaved, ih]
    · rw [hlines, hsaved, List.length_cons, List.length_cons, ih]

theorem length_readLines {n : ℕ} {lines : List Bytes} {l : List (Bytes × Value)}
    {warnings : List (ℕ × String)} (h : readLines text n lines = some (l, warnings)) :
    l.length ≤ lines.length := by
  induction lines generalizing n l warnings with
  | nil =>
    obtain ⟨rfl, -⟩ := Prod.mk.inj (Option.some.inj h)
    exact le_refl _
  | cons line lines ih =>
    unfold readLines at h
    split at h
    · cases h
    · obtain ⟨⟨l', w⟩, hrest, heq⟩ := Option.map_eq_some_iff.mp h
      obtain ⟨rfl, -⟩ := Prod.mk.inj heq
      exact (ih hrest).trans (Nat.le_succ _)
    · next entry _ =>
      obtain ⟨⟨l', w⟩, hrest, heq⟩ := Option.map_eq_some_iff.mp h
      obtain ⟨rfl, -⟩ := Prod.mk.inj heq
      have hle := ih hrest
      rw [List.length_append, List.length_cons]
      cases entry with
      | none => exact (Nat.zero_add _).trans_le (hle.trans (Nat.le_succ _))
      | some p => exact (Nat.add_comm _ _).trans_le (Nat.succ_le_succ hle)

/-- The lines are all read as they were written if and only if every one of them can be. -/
theorem readLines_written (n : ℕ) (entries : List (Bytes × Option Value)) :
    readLines text n (linesOf text entries) =
        some ((saved entries).map fun p => (p.1, reread text p.2), []) ↔
      ∀ p ∈ saved entries, Keepable p := by
  induction entries generalizing n with
  | nil => exact iff_of_true rfl (List.forall_mem_nil _)
  | cons p entries ih =>
    obtain ⟨name, value⟩ := p
    obtain ⟨-, hlines, hsaved⟩ | ⟨v, line, rfl, hline, hlines, hsaved⟩ :=
      line_cases text name value entries
    · rw [hlines, hsaved, ih]
    · have htrim := @Clean.trim _ (clean_lineText hline).1 whitespace fun c hc => hc
      rw [hlines, hsaved, List.map_cons, List.forall_mem_cons, readLines, htrim, ← ih (n + 1),
        Keepable, ← readLine_written hline]
      cases hread : readLine text line with
      | error e =>
        refine iff_of_false (fun hall => ?_) fun h => by cases h.1
        cases e with
        | none => cases hall
        | some msg =>
          obtain ⟨r, -, heq⟩ := Option.map_eq_some_iff.mp hall
          exact List.cons_ne_nil _ _ (Prod.mk.inj heq).2
      | ok entry =>
        dsimp only
        rw [Option.map_eq_some_iff]
        cases entry with
        | none =>
          refine iff_of_false (fun hall => ?_) fun h => by cases h.1
          obtain ⟨⟨l, w⟩, hrest, heq⟩ := hall
          have hlength := length_readLines hrest
          obtain rfl : l = _ := (Prod.mk.inj heq).1
          rw [length_linesOf, List.length_cons, List.length_map] at hlength
          omega
        | some p =>
          constructor
          · rintro ⟨⟨l, w⟩, hrest, heq⟩
            obtain ⟨hentries, rfl⟩ := Prod.mk.inj heq
            obtain ⟨rfl, rfl⟩ := List.cons.inj hentries
            exact ⟨rfl, hrest⟩
          · rintro ⟨hentry, hrest⟩
            rw [hrest, Option.some.inj (Except.ok.inj hentry)]
            exact ⟨_, rfl, rfl⟩

theorem readPersistent_saved (text : DoubleText) (entries : List (Bytes × Option Value)) :
    readPersistent text (SavePersistentImpl text entries) =
      (readLines text 2 (linesOf text entries)).map fun p => (true, p.1, p.2) := by
  have hheader : (skipped (trim whitespace header)) = false := by decide
  unfold readPersistent SavePersistentImpl
  rw [pieces_append (by decide), pieces_lines, List.dropWhile_cons_of_neg (by rw [hheader]; decide)]
  exact if_pos rfl

/-- A file that was saved is read without a warning, and gives back what was in it, doubles to
their written digits, if and only if its names and strings allow it: no name is empty, none has a
quote in it or ends in a backslash, no string has a quote, and none in an array but the last ends
in a backslash. -/
theorem saved_file_read (text : DoubleText) (entries : List (Bytes × Option Value)) :
    readPersistent text (SavePersistentImpl text entries) =
        some (true, (saved entries).map fun p => (p.1, reread text p.2), []) ↔
      ∀ p ∈ saved entries, Keepable p := by
  rw [← @readLines_written text 2 entries, readPersistent_saved, Option.map_eq_some_iff]
  constructor
  · rintro ⟨⟨l, w⟩, hrest, heq⟩
    exact hrest.trans (congrArg some (Prod.mk.inj heq).2)
  · intro hrest
    exact ⟨_, hrest, rfl⟩

/-- The texts of 0 and of 1. -/
def zeroOne : DoubleText where
  put d := if d = 0 then [48] else [49]
  strtod t := if t = [48] then some 0 else some 0x3ff0000000000000
  put_ne_nil d := by split <;> exact List.cons_ne_nil _ _
  put_chars d c hc := by
    split at hc
    · obtain rfl := List.mem_singleton.mp hc
      exact .inl ⟨by decide, by decide⟩
    · obtain rfl := List.mem_singleton.mp hc
      exact .inl ⟨by decide, by decide⟩
  strtod_put d := by split <;> rfl

/-- A gain of one and the name of a mode. -/
def gainAndMode : List (Bytes × Option Value) :=
  [([103], some (.double 0x3ff0000000000000)), ([109], some (.string [112, 101, 103]))]

theorem saved_file_read_gainAndMode :
    readPersistent zeroOne (SavePersistentImpl zeroOne gainAndMode) =
      some (true, [([103], .double 0x3ff0000000000000), ([109], .string [112, 101, 103])], []) := by
  refine (saved_file_read zeroOne gainAndMode).mpr fun p hp => ?_
  have hsaved : saved gainAndMode =
      [([103], .double 0x3ff0000000000000), ([109], .string [112, 101, 103])] := rfl
  rw [hsaved, List.mem_cons, List.mem_singleton] at hp
  obtain rfl | rfl := hp
  · exact ⟨List.cons_ne_nil _ _, by decide, by decide, trivial⟩
  · exact ⟨List.cons_ne_nil _ _, by decide, by decide, show quote ∉ _ by decide⟩

end Files

end SparxRobot.NetworkTables

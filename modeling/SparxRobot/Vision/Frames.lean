import SparxRobot.NetworkTables.Settling
import SparxRobot.Vision.Finder

/-! The table between the camera's board and the robot. The board is the client, and its loop puts
an array for every picture; the robot is the server, and puts the mode. -/
namespace SparxRobot.Vision
open MasterControl NetworkTables Storage Replication

/-- The bytes of a text that has ASCII characters only. -/
def bytesOf (text : String) : Bytes := text.toList.map fun c => c.toNat.toUInt8

def TARGET_DATA_TABLE_NAME : String := "targetData"

/-- The name of an entry of the table. -/
def path (key : String) : Bytes :=
  47 :: (bytesOf TARGET_DATA_TABLE_NAME ++ 47 :: bytesOf key)

/-- The board's loop sets the two arrays, a thread of the robot everything else. -/
def tableOwner (name : Bytes) : Node Unit × ℕ :=
  if name = path PEG_KEY ∨ name = path HIGH_GOAL_KEY then (.client (), 0) else (.server, 0)

/-- `published` is what the loop has put last under a key. -/
structure TargetTable (R : Type) [Field R] where
  sys : System Unit
  control : MasterControlState R := {}
  published : String → Option (List R) := fun _ => none

section Steps

variable {R : Type} [Field R] [LinearOrder R] (bits : R → Double) (uid : Unit → ℕ)

/-- `PutNumberArray` -/
def array (data : List R) : Value := .doubleArray (data.map bits)

/-- The owner of a name sets it. -/
inductive Puts (sys : System Unit) (name : Bytes) (value : Value) : System Unit → Prop
  | intro {r : Bool} {s : Storage} {effects : Effects} :
      sys.unsent (ownerThread tableOwner name) = [] →
      ((sys.storage (tableOwner name).1).find name).isSome →
      (sys.storage (tableOwner name).1).SetEntryValue name (some value) = some (r, s, effects) →
      sys.Near name s →
      Puts sys name value { sys with
        storage := Function.update sys.storage (tableOwner name).1 s
        unsent := Function.update sys.unsent (ownerThread tableOwner name) effects.outgoing }

/-- The listener of the board may hear of a mode at any time. -/
inductive TargetTable.Step : TargetTable R → TargetTable R → Prop
  | run {table : TargetTable R} {sys : System Unit} {control : MasterControlState R} {key : String}
      {data : List R} (pegData highGoalData : TargetData R) :
      masterStep table.control (.run pegData highGoalData) = (control, some (key, data)) →
      Puts table.sys (path key) (array bits data) sys →
      Step table ⟨sys, control, Function.update table.published key (some data)⟩
  | valueChanged {table : TargetTable R} (key : String) (mode : Bool) :
      Step table { table with control := (masterStep table.control (.valueChanged key mode)).1 }
  | putValue {table : TargetTable R} {sys : System Unit} (mode : Bool) :
      Puts table.sys (path MODE_KEY) (.boolean mode) sys → Step table { table with sys := sys }
  | carry {table : TargetTable R} {sys : System Unit} : table.sys.Carry uid sys →
      Step table { table with sys := sys }

/-- The array that a node shows under a key. -/
def TargetTable.shows (table : TargetTable R) (key : String) (node : Node Unit) : Option Value :=
  (table.sys.view (path key) node).bind (·.2.1)

/-- The array that was put last, or what there was before. -/
def TargetTable.latest (table : TargetTable R) (first : String → Option Value) (key : String) :
    Option Value :=
  match table.published key with
  | none => first key
  | some data => some (array bits data)

end Steps

section Runs

variable {R : Type} [Field R] [LinearOrder R] {bits : R → Double} {uid : Unit → ℕ}
  {table table' : TargetTable R} {sys sys' : System Unit} {key key' : String} {value : Value}

theorem paths_ne : path MODE_KEY ≠ path PEG_KEY ∧ path MODE_KEY ≠ path HIGH_GOAL_KEY ∧
    path PEG_KEY ≠ path HIGH_GOAL_KEY := by
  decide

theorem path_ne_nil (key : String) : path key ≠ [] := List.cons_ne_nil _ _

theorem carried_doubleArray (v : List Double) (hv : v.length ≤ 255) :
    (Value.doubleArray v).Carried 0x0300 :=
  fun _ _ => ⟨trivial, by rw [Value.received, List.take_of_length_le hv]⟩

theorem puts_step (h : Puts sys (path key) value sys') (hvalue : value.Carried 0x0300) :
    sys.Step tableOwner uid sys' := by
  cases h with
  | intro hidle hthere hset hnear => exact .set hidle hthere hvalue hset hnear

theorem puts_cases {ids : Bytes → Option ℕ} {name : Bytes} (hs : Standing uid ids sys)
    (h : Puts sys name value sys') : ∃ e s, (sys.storage (tableOwner name).1).find name = some e ∧
      sys'.storage = Function.update sys.storage (tableOwner name).1 s ∧
      (((name = [] ∨ e.value.any fun old => old.type ≠ value.type) ∧
        s = sys.storage (tableOwner name).1) ∨
      ∃ n c, s = (sys.storage (tableOwner name).1).revise e value n c) := by
  cases h with
  | @intro r s effects hidle hthere hset hnear =>
    obtain ⟨e, hfind⟩ := Option.isSome_iff_exists.mp hthere
    have hat := hs.knows (tableOwner name).1
    obtain ⟨r, s, effects, hcase, hcases⟩ :=
      setEntryValue_cases value hat.sound hat.room hat.queue_outgoing hfind
    obtain ⟨rfl, rfl, rfl⟩ : _ ∧ _ ∧ _ := by simpa [hcase] using hset
    refine ⟨e, s, hfind, rfl, ?_⟩
    obtain ⟨hrefused, hs', -⟩ | ⟨-, c, -, -, -, hs'⟩ | ⟨c, -, hs'⟩ := hcases
    · exact .inl ⟨hrefused, hs'⟩
    · exact .inr ⟨_, c, hs'⟩
    · exact .inr ⟨_, c, hs'⟩

theorem puts_frame {ids : Bytes → Option ℕ} {name name' : Bytes} (hs : Standing uid ids sys)
    (h : Puts sys name value sys') (hne : name' ≠ name) (node : Node Unit) :
    sys'.view name' node = sys.view name' node := by
  obtain ⟨e, s, hfind, hstorage, ⟨-, rfl⟩ | ⟨n, c, rfl⟩⟩ := puts_cases hs h
  · exact view_same hstorage rfl node
  · obtain ⟨he, rfl⟩ := mem_of_find hfind
    refine view_same hstorage ?_ node
    rw [find_shared (hs.knows _).sound he, if_neg hne]
    rfl

/-- A value of the right type is taken. -/
theorem puts_shows {ids : Bytes → Option ℕ} {name : Bytes} {old : Value} (hs : Standing uid ids sys)
    (h : Puts sys name value sys') (hname : name ≠ [])
    (hold : (sys.view name (tableOwner name).1).bind (·.2.1) = some old)
    (htype : old.type = value.type) :
    (sys'.view name (tableOwner name).1).bind (·.2.1) = some value.normal := by
  obtain ⟨e, s, hfind, hstorage, ⟨hrefused, -⟩ | ⟨n, c, rfl⟩⟩ := puts_cases hs h
  · have hvalue : e.value.map Value.normal = some old := by
      rw [System.view, hfind] at hold
      exact hold
    obtain ⟨v, hv, rfl⟩ := Option.map_eq_some_iff.mp hvalue
    rw [hv, Option.any_some, decide_eq_true_iff, ← Value.normal_type v] at hrefused
    exact absurd htype (hrefused.resolve_left hname)
  · obtain ⟨he, rfl⟩ := mem_of_find hfind
    rw [view_update sys _ e.name _ hstorage, if_pos rfl, find_shared (hs.knows _).sound he, if_pos rfl]
    rfl

/-- Where the arrays are in the table. -/
def IsFrame (key : String) : Prop := key = PEG_KEY ∨ key = HIGH_GOAL_KEY

theorem owner_of_isFrame (h : IsFrame key) : tableOwner (path key) = (.client (), 0) := by
  obtain rfl | rfl := h
  · exact if_pos (.inl rfl)
  · exact if_pos (.inr rfl)

theorem mode_ne_frame (h : IsFrame key) : path key ≠ path MODE_KEY := by
  obtain rfl | rfl := h
  · exact paths_ne.1.symm
  · exact paths_ne.2.1.symm

theorem frame_inj (h : IsFrame key) (h' : IsFrame key') (heq : path key = path key') : key = key' := by
  obtain rfl | rfl := h <;> obtain rfl | rfl := h'
  · rfl
  · exact absurd heq paths_ne.2.2
  · exact absurd heq.symm paths_ne.2.2
  · rfl

/-- What an iteration puts is an array of three. -/
theorem run_puts {control control' : MasterControlState R} {pegData highGoalData : TargetData R}
    {data : List R}
    (h : masterStep control (.run pegData highGoalData) = (control', some (key, data))) :
    IsFrame key ∧ data.length = 3 := by
  unfold masterStep at h
  dsimp only at h
  split at h
  · obtain ⟨-, rfl, rfl⟩ : _ ∧ _ ∧ _ := by simpa using h
    exact ⟨.inl rfl, rfl⟩
  · obtain ⟨-, rfl, rfl⟩ : _ ∧ _ ∧ _ := by simpa using h
    exact ⟨.inr rfl, rfl⟩

theorem table_step (h : table.Step bits uid table') :
    table'.sys = table.sys ∨ table.sys.Step tableOwner uid table'.sys := by
  cases h with
  | @run sys control key data pegData highGoalData hrun hputs =>
    have hlength : (data.map bits).length ≤ 255 := by
      rw [List.length_map, (run_puts hrun).2]
      decide
    exact .inr (puts_step hputs (carried_doubleArray _ hlength))
  | valueChanged => exact .inl rfl
  | putValue mode hputs => exact .inr (puts_step hputs (carried_boolean mode))
  | carry hcarry => exact .inr (.carry hcarry)

theorem table_trace {trace : ℕ → TargetTable R} (h : IsTrace (TargetTable.Step bits uid) trace) :
    IsTrace (System.Step tableOwner uid) fun n => (trace n).sys := by
  intro n
  obtain hsame | hstep := h n
  · exact .inl (congrArg TargetTable.sys hsame)
  · exact table_step hstep

/-- The arrays that are there at the beginning. -/
structure TargetTable.Start (table : TargetTable R) : Prop where
  sys : table.sys.Start
  published : table.published = fun _ => none
  typed : ∀ key, IsFrame key → ∃ v, table.shows key (.client ()) = some v ∧
    v.type = .NT_DOUBLE_ARRAY

/-- The board shows what its loop has put. -/
def ShowsLatest (bits : R → Double) (first : String → Option Value) (table : TargetTable R) : Prop :=
  ∀ key, IsFrame key → table.shows key (.client ()) = table.latest bits first key ∧
    ∃ v, table.shows key (.client ()) = some v ∧ v.type = .NT_DOUBLE_ARRAY

theorem showsLatest_step {start : System Unit} {first : String → Option Value}
    (hstart : start.Start) (hrun : Run tableOwner uid start table.sys)
    (h : ShowsLatest bits first table) (hstep : table.Step bits uid table') :
    ShowsLatest bits first table' := by
  have hs := standing_run (standing_start uid hstart) hrun
  intro key hkey
  obtain ⟨hlatest, v, hv, htype⟩ := h key hkey
  cases hstep with
  | valueChanged => exact ⟨hlatest, v, hv, htype⟩
  | @run sys control key' data pegData highGoalData hmaster hputs =>
    by_cases hsame : key = key'
    · subst hsame
      have howner := owner_of_isFrame hkey
      have hshown : (table.sys.view (path key) (tableOwner (path key)).1).bind (·.2.1) = some v := by
        rw [howner]
        exact hv
      have hshows : (sys.view (path key) (tableOwner (path key)).1).bind (·.2.1) =
        some (array bits data) := puts_shows hs hputs (path_ne_nil key) hshown htype
      rw [howner] at hshows
      refine ⟨hshows.trans ?_, _, hshows, rfl⟩
      dsimp only [TargetTable.latest]
      rw [Function.update_self]
    · have hne : path key ≠ path key' :=
        fun heq => hsame (frame_inj hkey (run_puts hmaster).1 heq)
      dsimp only [TargetTable.shows, TargetTable.latest]
      rw [Function.update_of_ne hsame, puts_frame hs hputs hne]
      exact ⟨hlatest, v, hv, htype⟩
  | @putValue sys mode hputs =>
    rw [TargetTable.shows, puts_frame hs hputs (mode_ne_frame hkey)]
    exact ⟨hlatest, v, hv, htype⟩
  | @carry sys hcarry =>
    have hview := owner_view_carry (Function.injective_of_subsingleton uid) hstart hrun hcarry
      (path key)
    rw [owner_of_isFrame hkey] at hview
    rw [TargetTable.shows, hview]
    exact ⟨hlatest, v, hv, htype⟩

theorem showsLatest_trace {trace : ℕ → TargetTable R} (hstart : (trace 0).Start)
    (htrace : IsTrace (TargetTable.Step bits uid) trace) (t : ℕ) :
    ShowsLatest bits (fun key => (trace 0).shows key (.client ())) (trace t) := by
  induction t with
  | zero =>
    intro key hkey
    refine ⟨?_, hstart.typed key hkey⟩
    rw [TargetTable.latest, hstart.published]
  | succ t ih =>
    obtain hsame | hstep := htrace t
    · rw [hsame]
      exact ih
    · exact showsLatest_step hstart.sys ((table_trace htrace).run (Nat.zero_le t)) ih hstep

theorem frame_tracked {trace : ℕ → TargetTable R} (hstart : (trace 0).Start)
    (htrace : IsTrace (TargetTable.Step bits uid) trace) (hkey : IsFrame key) (t : ℕ) :
    ∃ ids id course, Standing uid ids (trace t).sys ∧ ids (path key) = some id ∧
      Tracks tableOwner (fun n => (trace n).sys) t (trace t).sys (path key) id course := by
  obtain ⟨ids, hs, hnone | ⟨id, course, hid, h⟩⟩ := tracks_of_start
    (Function.injective_of_subsingleton uid) hstart.sys (table_trace htrace) t (path key)
  · obtain ⟨-, v, hv, -⟩ := showsLatest_trace hstart htrace t key hkey
    rw [TargetTable.shows, hs.view_none hnone] at hv
    exact absurd hv.symm (Option.some_ne_none v)
  · exact ⟨ids, id, course, hs, hid, h⟩

/-- Both arrays are there. The peg's has been set for the n-th time. -/
def frameStorage (server : Bool) (n : ℕ) (v : List Double) : Storage :=
  { entries := [⟨0, path PEG_KEY, some (.doubleArray v), 0, 0, ⟨n⟩, false, 0⟩,
      ⟨1, path HIGH_GOAL_KEY, some (.doubleArray []), 0, 1, ⟨0⟩, false, 0⟩]
    idmap := [some 0, some 1], server := server, queue_outgoing := true, allocated := 2 }

/-- The doubles of the numbers in the picture. -/
def frameBits (x : ℚ) : Double :=
  if x = 3 then 0x4008000000000000 else if x = 1 then 0x3FF0000000000000 else 0

def pegFrame : List Double := [0x4008000000000000, 0x3FF0000000000000, 0]

def pegUpdate : Message := .entryUpdate 0 1 (.doubleArray pegFrame)

def frameStart : System Unit :=
  ⟨fun node => frameStorage (node = .server) 0 [], fun _ => {}, fun _ => [], fun _ => []⟩

def framePut : System Unit := { frameStart with
  storage := Function.update frameStart.storage (.client ()) (frameStorage false 1 pegFrame)
  unsent := Function.update frameStart.unsent (.user (.client ()) 0) [⟨pegUpdate, none⟩] }

/-- The board has looked for the peg once. -/
def pegLooked (sys : System Unit) : TargetTable ℚ where
  sys := sys
  control := { lookingForPeg := true, pegRefresh := nextRefresh 0 }
  published := Function.update (fun _ => none) PEG_KEY (some [3, 1, 0])

def frameTrace : ℕ → TargetTable ℚ
  | 0 => { sys := frameStart, control := { lookingForPeg := true } }
  | n + 1 => pegLooked (delivery framePut pegUpdate (frameStorage true 1 pegFrame) 7 n)

theorem sound_frame (server : Bool) (n : ℕ) (v : List Double) : (frameStorage server n v).Sound := by
  refine ⟨?_, ?_, ?_, ?_, ?_, fun id address h => ?_⟩
  any_goals simp [frameStorage, paths_ne.2.2, paths_ne.2.2.symm]
  obtain _ | _ | id := id
  · simpa [frameStorage, eq_comm] using h
  · simpa [frameStorage, eq_comm] using h
  · simp [frameStorage] at h

theorem start_frame : (frameTrace 0).Start := by
  refine ⟨⟨fun node => sound_frame .., fun node => ?_, fun node => ?_, fun node => rfl,
    fun node name => ?_, fun name e hfind => ?_, fun link => ⟨rfl, rfl, rfl⟩, fun link => rfl,
    fun thread => rfl⟩, rfl, fun key hkey => ?_⟩
  · show 2 ≤ 0xffff
    decide
  · exact decide_eq_true_iff
  · rfl
  · obtain ⟨he, -⟩ := mem_of_find hfind
    obtain rfl | he := List.mem_cons.mp he
    · decide
    · obtain rfl := List.mem_singleton.mp he
      decide
  · obtain rfl | rfl := hkey
    · exact ⟨_, rfl, rfl⟩
    · exact ⟨_, rfl, rfl⟩

theorem near_frame : frameStart.Near (path PEG_KEY) (frameStorage false 1 pegFrame) := by
  intro node e e' hfind hfind'
  have he : e.seq_num = ⟨1⟩ := by
    rw [← Option.some.inj hfind]
  have he' : e'.seq_num = ⟨0⟩ := by
    rw [← Option.some.inj hfind']
  rw [he, he']
  decide

theorem trace_frame : IsTrace (TargetTable.Step frameBits fun _ => 7) frameTrace := by
  have hput : Puts frameStart (path PEG_KEY) (array frameBits [3, 1, 0]) framePut :=
    @Puts.intro frameStart (path PEG_KEY) (array frameBits [3, 1, 0]) true
      (frameStorage false 1 pegFrame) ⟨[], [⟨pegUpdate, none⟩], []⟩ rfl rfl rfl near_frame
  intro n
  match n with
  | 0 => exact .inr (.run ⟨3, 1⟩ ⟨0, 0⟩ rfl hput)
  | n + 1 =>
    exact (delivery_carry rfl rfl rfl rfl rfl rfl rfl n).imp (congrArg pegLooked) .carry

theorem quiet_frame : (frameTrace 6).sys.Quiet :=
  ⟨by rintro (_ | _) <;> exact ⟨rfl, rfl⟩, by rintro (_ | _) <;> rfl, fun thread => by
    simp only [frameTrace, pegLooked, delivery, serverRelayed, serverRead, clientWritten,
      clientPosted, clientQueued, framePut, frameStart, Function.update_apply]
    split_ifs <;> rfl⟩

/-- What the robot shows under a key at a moment is the whole array of one picture, and at no
later moment does it show that of an earlier picture. -/
theorem frames_in_order {trace : ℕ → TargetTable R} (hstart : (trace 0).Start)
    (htrace : IsTrace (TargetTable.Step bits uid) trace) (hkey : IsFrame key) {t u : ℕ}
    (htu : t ≤ u) : ∃ was ≤ t, ∃ was' ≤ u, was ≤ was' ∧
      (trace t).shows key .server =
        (trace was).latest bits (fun key => (trace 0).shows key (.client ())) key ∧
      (trace u).shows key .server =
        (trace was').latest bits (fun key => (trace 0).shows key (.client ())) key := by
  obtain ⟨ids, id, course, hs, hid, h⟩ := frame_tracked hstart htrace hkey t
  obtain ⟨was, hwas, was', hwas', horder, hview, hview'⟩ := h.views_was
    (Function.injective_of_subsingleton uid) hid (table_trace htrace) hs .server htu
  have hshows : ∀ n n', (trace n).sys.view (path key) .server =
      (trace n').sys.view (path key) (tableOwner (path key)).1 → (trace n).shows key .server =
      (trace n').latest bits (fun key => (trace 0).shows key (.client ())) key := by
    intro n n' heq
    rw [← (showsLatest_trace hstart htrace n' key hkey).1, TargetTable.shows, heq,
      owner_of_isFrame hkey]
    rfl
  exact ⟨was, hwas, was', hwas', horder, hshows t was hview, hshows u was' hview'⟩

theorem frames_in_order_peg : (frameTrace 4).shows PEG_KEY .server = some (array frameBits []) ∧
    (frameTrace 5).shows PEG_KEY .server = some (array frameBits [3, 1, 0]) ∧
    ∃ was ≤ 4, ∃ was' ≤ 5, was ≤ was' ∧
      (frameTrace 4).shows PEG_KEY .server = (frameTrace was).latest frameBits
        (fun key => (frameTrace 0).shows key (.client ())) PEG_KEY ∧
      (frameTrace 5).shows PEG_KEY .server = (frameTrace was').latest frameBits
        (fun key => (frameTrace 0).shows key (.client ())) PEG_KEY :=
  ⟨rfl, rfl, frames_in_order start_frame trace_frame (.inl rfl) (Nat.le_succ 4)⟩

/-- When nothing is on its way, the robot shows what the board's loop put last. -/
theorem last_frame_shown {trace : ℕ → TargetTable R} (hstart : (trace 0).Start)
    (htrace : IsTrace (TargetTable.Step bits uid) trace) (hkey : IsFrame key) {t : ℕ}
    (hquiet : (trace t).sys.Quiet) : (trace t).shows key .server =
      (trace t).latest bits (fun key => (trace 0).shows key (.client ())) key := by
  obtain ⟨ids, id, course, -, -, h⟩ := frame_tracked hstart htrace hkey t
  rw [← (showsLatest_trace hstart htrace t key hkey).1, TargetTable.shows, h.settled hquiet,
    owner_of_isFrame hkey]
  rfl

theorem last_frame_shown_peg :
    (frameTrace 6).shows PEG_KEY .server = some (array frameBits [3, 1, 0]) :=
  last_frame_shown start_frame trace_frame (.inl rfl) (t := 6) quiet_frame

end Runs

end SparxRobot.Vision

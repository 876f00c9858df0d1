import SparxRobot.NetworkTables.Course

/-! When all messages have been read, every node has the values that their owners set last. Before
that, a node has values that they set, in the order in which they did. -/
namespace SparxRobot.NetworkTables
open Message NetworkConnection Storage Replication

variable {ι : Type} {owner : Bytes → Node ι × ℕ} {uid : ι → ℕ}
  {start sys sys' : System ι} {name : Bytes} {id k n : ℕ} {course : Course ι} {link : Link ι}
  {node : Node ι} {thread : Thread ι} {m : Message} {trace : ℕ → System ι} {t : ℕ}

section Tracks

/-- No node is ahead of the owner's. -/
theorem Tracks.le_root (h : Tracks owner trace t sys name id course) (node : Node ι) :
    course.version node ≤ course.version (owner name).1 := by
  refine forall_node (P := fun node => course.version node ≤ course.version (owner name).1)
    (le_refl _) (fun link halong hle => ?_) node
  obtain ⟨q, -, htrail⟩ := h.along link halong
  exact htrail.le.trans hle

/-- What was before is before. -/
theorem Tracks.was_next (h : Tracks owner trace t sys name id course)
    (hk : k ≤ course.version (owner name).1) : course.was k ≤ t + 1 ∧
      (trace (course.was k)).view name (owner name).1 = course.shown id k := by
  obtain ⟨hwas, hview⟩ := h.was k hk
  exact ⟨hwas.trans (Nat.le_succ t), hview⟩

theorem Tracks.frame (h : Tracks owner trace t sys name id course)
    (hview : ∀ node, sys'.view name node = sys.view name node)
    (htoward : ∀ link, sys'.toward id link = sys.toward id link)
    (habout : ∀ thread, sys'.about id thread = sys.about id thread) :
    Tracks owner trace (t + 1) sys' name id course where
  first := h.first
  held node := (hview node).trans (h.held node)
  along link halong := by
    rw [htoward, habout]
    exact h.along link halong
  aside link haside := (htoward link).trans (h.aside link haside)
  silent thread hne := h.silent thread (habout thread ▸ hne)
  near := h.near
  was _ hk := h.was_next hk
  order := h.order

/-- An update is queued, and replaces the one that was pending. -/
theorem Tracks.queue (h : Tracks owner trace t sys name id course)
    (hview : ∀ node, sys'.view name node = sys.view name node)
    (hthread : sys.about id thread = m :: sys'.about id thread)
    (habout : ∀ thread' ≠ thread, sys'.about id thread' = sys.about id thread')
    (hsent : ∀ link, Along (owner name).1 link ∧ feeder owner name link = thread →
      ∃ front pending, sys.toward id link = front ++ pending ∧ sys'.toward id link = front ++ [m])
    (hothers : ∀ link, ¬ (Along (owner name).1 link ∧ feeder owner name link = thread) →
      sys'.toward id link = sys.toward id link) :
    Tracks owner trace (t + 1) sys' name id course where
  first := h.first
  held node := (hview node).trans (h.held node)
  along link halong := by
    obtain ⟨q, hq, htrail⟩ := h.along link halong
    by_cases hfeeder : feeder owner name link = thread
    · obtain ⟨front, pending, hbefore, hafter⟩ := hsent link ⟨halong, hfeeder⟩
      rw [hbefore, hfeeder, hthread, List.append_assoc] at hq
      obtain ⟨qfront, qrest, rfl, hqfront, hqrest⟩ := List.map_eq_append_iff.mp hq.symm
      obtain ⟨qpending, qbehind, rfl, -, hqbehind⟩ := List.map_eq_append_iff.mp hqrest
      obtain ⟨k, qbehind, rfl, hk, hqabout⟩ := List.map_eq_cons_iff.mp hqbehind
      refine ⟨qfront ++ k :: qbehind, ?_, htrail.skip⟩
      rw [hafter, hfeeder, List.map_append, hqfront, List.map_cons, hk, hqabout, List.append_assoc]
      rfl
    · rw [hothers link fun hboth => hfeeder hboth.2, habout _ hfeeder]
      exact ⟨q, hq, htrail⟩
  aside link haside := (hothers link fun hboth => haside hboth.1).trans (h.aside link haside)
  silent thread' hne := by
    by_cases heq : thread' = thread
    · exact h.silent thread' (by rw [heq, hthread]; nofun)
    · exact h.silent thread' (habout thread' heq ▸ hne)
  near := h.near
  was _ hk := h.was_next hk
  order := h.order

/-- What is read first is what is next in the course. -/
theorem Tracks.read (h : Tracks owner trace t sys name id course)
    (hlink : sys.toward id link = m :: sys'.toward id link) :
    Along (owner name).1 link ∧ ∃ k q, m = course.message id k ∧
      sys'.toward id link ++ sys.about id (feeder owner name link) = q.map (course.message id) ∧
      course.version link.target ≤ k ∧ k ≤ course.version link.source ∧
      Trail k q (course.version link.source) := by
  have halong : Along (owner name).1 link := by
    by_contra haside
    rw [h.aside link haside] at hlink
    nomatch hlink
  obtain ⟨q, hq, htrail⟩ := h.along link halong
  rw [hlink, List.cons_append] at hq
  obtain ⟨k, q, rfl, hk, hrest⟩ := List.map_eq_cons_iff.mp hq.symm
  exact ⟨halong, k, q, hk.symm, hrest.symm, htrail.1, htrail.2.le, htrail.2⟩

/-- An update that is not later is read. -/
theorem Tracks.pass (h : Tracks owner trace t sys name id course)
    (hview : ∀ node, sys'.view name node = sys.view name node)
    (habout : ∀ thread, sys'.about id thread = sys.about id thread)
    (hlink : sys.toward id link = m :: sys'.toward id link)
    (hlinks : ∀ link' ≠ link, sys'.toward id link' = sys.toward id link')
    (hsame : ∀ k, m = course.message id k → course.version link.target ≤ k →
      k ≤ course.version link.target + 32768 → k = course.version link.target) :
    Tracks owner trace (t + 1) sys' name id course where
  first := h.first
  held node := (hview node).trans (h.held node)
  along link' halong' := by
    rw [habout]
    obtain rfl | hne := eq_or_ne link' link
    · obtain ⟨-, k, q, hm, hq, hge, hle, htrail⟩ := h.read hlink
      have hroot := h.le_root link'.source
      have hnear := h.near link'.target
      obtain rfl := hsame k hm hge (by omega)
      exact ⟨q, hq, htrail⟩
    · rw [hlinks link' hne]
      exact h.along link' halong'
  aside link' haside := by
    obtain rfl | hne := eq_or_ne link' link
    · exact absurd (h.read hlink).1 haside
    · exact (hlinks link' hne).trans (h.aside link' haside)
  silent thread hne := h.silent thread (habout thread ▸ hne)
  near := h.near
  was _ hk := h.was_next hk
  order := h.order

/-- A value gets on from node to node. -/
def Advanced (owner : Bytes → Node ι × ℕ) (trace : ℕ → System ι) (t : ℕ) (sys : System ι)
    (name : Bytes) (id : ℕ) (course : Course ι) : Prop :=
  ∃ version, Tracks owner trace t sys name id { course with version := version } ∧
    (∀ node, course.version node ≤ version node) ∧
    version (owner name).1 = course.version (owner name).1

theorem Tracks.advanced (h : Tracks owner trace t sys name id course) :
    Advanced owner trace t sys name id course :=
  ⟨course.version, h, fun _ => le_refl _, rfl⟩

theorem tracks_start {e : Entry} {value : Value} (h : (trace 0).Start)
    (hfind : ((trace 0).storage .server).find name = some e)
    (hvalue : e.value = some value) : Tracks owner trace 0 (trace 0) name e.id
      ⟨fun _ => 0, e.seq_num, fun _ => value, fun _ => 0⟩ := by
  have hview : ∀ node, (trace 0).view name node = some (e.id, some value.normal, e.seq_num) := by
    intro node
    rw [h.same, System.view, hfind, Option.map_some, Entry.shared, hvalue]
    rfl
  have hnothing : ∀ link, (trace 0).toward e.id link = [] := by
    intro link
    obtain ⟨houtgoing, hpending, -⟩ := h.sender link
    rw [System.toward, houtgoing, hpending, h.inFlight]
    rfl
  have hsilent : ∀ thread, (trace 0).about e.id thread = [] := by
    intro thread
    rw [System.about, h.unsent]
    rfl
  refine ⟨h.numbers name e hfind, hview, fun link _ => ⟨[], ?_, rfl⟩, fun link _ => hnothing link,
    fun thread hne => absurd (hsilent thread) hne, fun _ => Nat.zero_le _,
    fun k hk => ⟨le_refl _, ?_⟩, fun _ _ _ _ => le_refl _⟩
  · rw [hnothing, hsilent]
    rfl
  · obtain rfl := Nat.le_zero.mp hk
    exact hview _

variable [DecidableEq ι]

/-- The owner sets another value. -/
theorem Tracks.set (h : Tracks owner trace t sys name id course) (htrace : trace (t + 1) = sys')
    {value : Value}
    (hroot : sys'.view name (owner name).1 = some (id, some value.normal,
      course.number (course.version (owner name).1 + 1)))
    (hview : ∀ node ≠ (owner name).1, sys'.view name node = sys.view name node)
    (htoward : ∀ link, sys'.toward id link = sys.toward id link)
    (hidle : sys.about id (ownerThread owner name) = [])
    (hown : sys'.about id (ownerThread owner name) =
      [entryUpdate id (course.number (course.version (owner name).1 + 1)).value value])
    (habout : ∀ thread ≠ ownerThread owner name, sys'.about id thread = sys.about id thread)
    (hnear : ∀ node e', (sys.storage node).find name = some e' →
      ¬ (course.number (course.version (owner name).1 + 1)).less e'.seq_num) :
    Tracks owner trace (t + 1) sys' name id (course.push (owner name).1 value (t + 1)) := by
  have hlast : (course.push (owner name).1 value (t + 1)).shown id (course.version (owner name).1 + 1) =
      some (id, some value.normal, course.number (course.version (owner name).1 + 1)) := by
    rw [Course.shown, Course.push_value, Course.push_number]
  refine ⟨h.first, fun node => ?_, fun link halong => ?_, fun link haside => ?_,
    fun thread hne => ?_, fun node => ?_, fun k hk => ?_, fun l hl k hk => ?_⟩
  · by_cases hne : node = (owner name).1
    · rw [hne, Course.push_version, hlast, hroot]
    · rw [Course.push_version_of_ne hne, Course.push_shown (h.le_root node), hview node hne]
      exact h.held node
  · obtain ⟨q, hq, htrail⟩ := h.along link halong
    have hold : q.map ((course.push (owner name).1 value (t + 1)).message id) =
        q.map (course.message id) :=
      List.map_congr_left fun k hk =>
        Course.push_message ((htrail.le_of_mem hk).trans (h.le_root link.source))
    rw [htoward, Course.push_version_of_ne halong.target_ne]
    by_cases hfeeder : feeder owner name link = ownerThread owner name
    · have hsource := (feeder_eq_owner_iff halong).mp hfeeder
      rw [hfeeder, hidle, List.append_nil] at hq
      rw [hsource] at htrail
      rw [hfeeder, hown, hq, hsource, Course.push_version]
      refine ⟨q ++ [course.version (owner name).1 + 1], ?_, htrail.push (Nat.le_succ _)⟩
      rw [List.map_append, hold, List.map_singleton, Course.message, Course.push_value,
        Course.push_number]
    · have hsource := fun heq => hfeeder ((feeder_eq_owner_iff halong).mpr heq)
      rw [habout _ hfeeder, Course.push_version_of_ne hsource]
      exact ⟨q, hq.trans hold.symm, htrail⟩
  · exact (htoward link).trans (h.aside link haside)
  · by_cases hown : thread = ownerThread owner name
    · exact .inl hown
    · exact h.silent thread (habout thread hown ▸ hne)
  · rw [Course.push_version]
    by_cases hne : node = (owner name).1
    · rw [hne, Course.push_version]
      exact Nat.le_add_right _ _
    · obtain ⟨e', hfind', he'⟩ := Option.map_eq_some_iff.mp (h.held node)
      have hless := hnear node e' hfind'
      rw [show e'.seq_num = course.number (course.version node) from congrArg (·.2.2) he'] at hless
      have hle := h.le_root node
      have hwas := h.near node
      rw [Course.push_version_of_ne hne]
      exact Course.near_of_not_less h.first (by omega) (by omega) hless
  · rw [Course.push_version] at hk
    obtain rfl | hlt := hk.eq_or_lt
    · rw [hlast, Course.push_was]
      exact ⟨le_refl _, htrace ▸ hroot⟩
    · rw [Course.push_shown (Nat.lt_succ_iff.mp hlt), Course.push_was_of_le (Nat.lt_succ_iff.mp hlt)]
      exact h.was_next (Nat.lt_succ_iff.mp hlt)
  · rw [Course.push_version] at hl
    obtain rfl | hlt := hl.eq_or_lt
    · rw [Course.push_was]
      obtain rfl | hlt := hk.eq_or_lt
      · rw [Course.push_was]
      · rw [Course.push_was_of_le (Nat.lt_succ_iff.mp hlt)]
        exact (h.was_next (Nat.lt_succ_iff.mp hlt)).1
    · rw [Course.push_was_of_le (Nat.lt_succ_iff.mp hlt),
        Course.push_was_of_le (hk.trans (Nat.lt_succ_iff.mp hlt))]
      exact h.order l (Nat.lt_succ_iff.mp hlt) k hk

/-- An update that is later is read, and the server is to send it on. -/
theorem Tracks.take (h : Tracks owner trace t sys name id course)
    (hlink : sys.toward id link = m :: sys'.toward id link)
    {seq_num : ℕ} {value : Value} (hm : m = entryUpdate id seq_num value)
    (htarget : sys'.view name link.target = some (id, some value.normal, ⟨seq_num⟩))
    (hview : ∀ node ≠ link.target, sys'.view name node = sys.view name node)
    (hlinks : ∀ link' ≠ link, sys'.toward id link' = sys.toward id link')
    (habout : ∀ thread ≠ .reader link, sys'.about id thread = sys.about id thread)
    (hidle : sys.about id (.reader link) = [])
    (hrelay : sys'.about id (.reader link) = if link.target = .server then [m] else []) :
    Advanced owner trace (t + 1) sys' name id course := by
  obtain ⟨halong, k, q, hmessage, hq, hge, hle, htrail⟩ := h.read hlink
  obtain ⟨-, hseq, hvalue⟩ := entryUpdate.inj (hm.symm.trans hmessage)
  have hshown : sys'.view name link.target = course.shown id k := by
    rw [htarget, hvalue, hseq]
    rfl
  have hown : (course.take link.target k).version (owner name).1 = course.version (owner name).1 :=
    Course.take_version_of_ne halong.target_ne.symm
  have hmore : ∀ node, course.version node ≤ (course.take link.target k).version node :=
    (Course.continues_take (owner name).1 hge).version
  refine ⟨(course.take link.target k).version, ?_, hmore, hown⟩
  refine ⟨h.first, fun node => ?_, fun link' halong' => ?_, fun link' haside => ?_,
    fun thread hne => ?_, fun node => ?_, fun k' hk' => h.was_next (hown ▸ hk'), fun l hl => ?_⟩
  · by_cases hne : node = link.target
    · rw [hne, Course.take_version]
      exact hshown
    · rw [Course.take_version_of_ne hne, hview node hne]
      exact h.held node
  · obtain rfl | hne := eq_or_ne link' link
    · have hfeeder : feeder owner name link' ≠ .reader link' := fun heq =>
        source_ne_target ((feeder_eq_reader_iff halong halong).mp heq)
      rw [Course.take_version, Course.take_version_of_ne source_ne_target, habout _ hfeeder]
      exact ⟨q, hq, htrail⟩
    · obtain ⟨q', hq', htrail'⟩ := h.along link' halong'
      have htarget_ne : link'.target ≠ link.target := fun heq => hne (halong'.target_inj halong heq)
      rw [Course.take_version_of_ne htarget_ne, hlinks link' hne]
      by_cases hfeeder : feeder owner name link' = .reader link
      · have hsource := (feeder_eq_reader_iff halong halong').mp hfeeder
        have hserver : link.target = .server := by
          cases link' with
          | up i => nomatch hfeeder
          | down i => exact hsource.symm
        rw [hfeeder, hidle, List.append_nil] at hq'
        rw [hsource] at htrail'
        rw [hfeeder, hrelay, if_pos hserver, hq', hsource, Course.take_version]
        refine ⟨q' ++ [k], ?_, htrail'.push hge⟩
        rw [List.map_append, hmessage]
        rfl
      · have hsource := fun heq => hfeeder ((feeder_eq_reader_iff halong halong').mpr heq)
        rw [habout _ hfeeder, Course.take_version_of_ne hsource]
        exact ⟨q', hq', htrail'⟩
  · obtain rfl | hne := eq_or_ne link' link
    · exact absurd halong haside
    · exact (hlinks link' hne).trans (h.aside link' haside)
  · by_cases hreader : thread = .reader link
    · subst hreader
      cases link with
      | up i => exact .inr ⟨i, halong, rfl⟩
      | down i => rw [hrelay, if_neg (by nofun)] at hne; exact absurd rfl hne
    · exact h.silent thread (habout thread hreader ▸ hne)
  · rw [hown]
    have hnear := h.near node
    exact hnear.trans (Nat.add_le_add_right (hmore node) _)
  · rw [hown] at hl
    exact h.order l hl

end Tracks

variable [DecidableEq ι]

section Steps

variable {s : Storage} {e : Entry} {value : Value} {c : NetworkConnection} {l : List Outgoing}

theorem find_shared (h : Sound s) (he : e ∈ s.entries) (n : SequenceNumber) (c : Bool) :
    ((s.revise e value n c).find name).map Entry.shared =
      if name = e.name then some (e.id, some value.normal, n) else (s.find name).map Entry.shared := by
  rw [find_revise h he]
  split <;> rfl

theorem view_update (sys : System ι) (s : Storage) (name : Bytes) (node' : Node ι)
    (h : sys'.storage = Function.update sys.storage node s) : sys'.view name node' =
      if node' = node then (s.find name).map Entry.shared else sys.view name node' := by
  unfold System.view
  rw [h, Function.update_apply]
  split <;> rfl

theorem about_update (sys : System ι) (id : ℕ) (thread' : Thread ι)
    (h : sys'.unsent = Function.update sys.unsent thread l) : sys'.about id thread' =
      if thread' = thread then (l.map (·.msg)).filter (concerns id) else sys.about id thread' := by
  unfold System.about
  rw [h, Function.update_apply]
  split <;> rfl

theorem view_same (h : sys'.storage = Function.update sys.storage node s)
    (hsame : (s.find name).map Entry.shared = sys.view name node) (node' : Node ι) :
    sys'.view name node' = sys.view name node' := by
  rw [view_update sys s name node' h]
  split
  · next heq => rw [heq, hsame]
  · rfl

theorem about_same (h : sys'.unsent = Function.update sys.unsent thread l)
    (hsame : (l.map (·.msg)).filter (concerns id) = sys.about id thread) (thread' : Thread ι) :
    sys'.about id thread' = sys.about id thread' := by
  rw [about_update sys id thread' h]
  split
  · next heq => rw [heq, hsame]
  · rfl

theorem concerns_update {id' seq_num : ℕ} : concerns id (entryUpdate id' seq_num value) ↔ id = id' :=
  concerns_of_entry rfl

theorem those_post (keep_alive : Bool) (now : ℕ) :
    those (concerns id) (c.PostOutgoing keep_alive now).outgoing.flatten ++
        those (concerns id) (c.PostOutgoing keep_alive now).pending_outgoing =
      those (concerns id) c.outgoing.flatten ++ those (concerns id) c.pending_outgoing := by
  unfold PostOutgoing
  split
  · split
    · rfl
    · split
      · rfl
      · rw [List.flatten_append, those_append]
        exact congrArg (· ++ _) (List.append_nil _)
  · rw [List.flatten_append, those_append, List.flatten_singleton]
    exact List.append_nil _

theorem toward_post (keep_alive : Bool) (now : ℕ) (link' : Link ι)
    (hsender : sys'.sender =
      Function.update sys.sender link ((sys.sender link).PostOutgoing keep_alive now))
    (hflight : sys'.inFlight = sys.inFlight) : sys'.toward id link' = sys.toward id link' := by
  unfold System.toward
  rw [hsender, hflight]
  obtain rfl | hne := eq_or_ne link' link
  · rw [Function.update_self, those_post]
  · rw [Function.update_of_ne hne]

variable {ids : Bytes → Option ℕ}

theorem tracks_set (hs : Standing uid ids sys) (hid : ids name = some id)
    (h : Tracks owner trace t sys name id course) (htrace : trace (t + 1) = sys') {name' : Bytes}
    {r : Bool} {effects : Effects} (hidle : sys.unsent (ownerThread owner name') = [])
    (hthere : ((sys.storage (owner name').1).find name').isSome)
    (hset : (sys.storage (owner name').1).SetEntryValue name' (some value) = some (r, s, effects))
    (hstorage : sys'.storage = Function.update sys.storage (owner name').1 s)
    (hunsent : sys'.unsent = Function.update sys.unsent (ownerThread owner name') effects.outgoing)
    (htoward : ∀ link, sys'.toward id link = sys.toward id link) (hnear : sys.Near name' s) :
    ∃ course', Tracks owner trace (t + 1) sys' name id course' ∧
      course.Continues (owner name).1 course' := by
  obtain ⟨e, hfind⟩ := Option.isSome_iff_exists.mp hthere
  have hat := hs.knows (owner name').1
  have hsilent : sys.about id (ownerThread owner name') = [] := by
    rw [System.about, hidle]
    rfl
  have hold : sys.view name (owner name').1 = if name = name' then some e.shared else
      ((sys.storage (owner name').1).find name).map Entry.shared := by
    split
    · next heq => rw [heq, System.view, hfind]; rfl
    · rfl
  obtain ⟨r, s, effects, hcase, hcases⟩ :=
    setEntryValue_cases value hat.sound hat.room hat.queue_outgoing hfind
  obtain ⟨he, rfl⟩ := mem_of_find hfind
  obtain ⟨rfl, rfl, rfl⟩ : _ ∧ _ ∧ _ := by simpa [hcase] using hset
  have hquiet : effects.outgoing = [] →
      (s.find name).map Entry.shared = sys.view name (owner e.name).1 →
      ∃ course', Tracks owner trace (t + 1) sys' name id course' ∧
        course.Continues (owner name).1 course' := by
    intro hout hsame
    refine ⟨course, h.frame (view_same hstorage hsame) htoward (about_same hunsent ?_),
      .refl _ _⟩
    rw [hsilent, hout]
    rfl
  obtain ⟨-, rfl, hout⟩ | ⟨old, c, hvalue, hequal, hout, rfl⟩ | ⟨c, hout, rfl⟩ := hcases
  · exact hquiet hout rfl
  · refine hquiet hout ?_
    rw [find_shared hat.sound he, hold, Entry.shared, hvalue, Option.map_some,
      Value.normal_of_equal hequal]
  · by_cases hname : name = e.name
    · subst hname
      have hshared : some e.shared = course.shown id (course.version (owner e.name).1) := by
        rw [← h.held, hold, if_pos rfl]
      obtain ⟨hidentity, -, hnumber⟩ : e.id = id ∧ _ ∧ e.seq_num = course.number _ := by
        simpa [Entry.shared, Course.shown] using hshared
      have hnumber_next : e.seq_num.next = course.number (course.version (owner e.name).1 + 1) := by
        rw [Course.number_add, hnumber]
        rfl
      refine ⟨course.push (owner e.name).1 value (t + 1), h.set htrace ?_ (fun node hne => ?_) htoward
        hsilent ?_ (fun thread hne => ?_) fun node e' hfind' => ?_, Course.continues_push⟩
      · rw [view_update sys _ e.name _ hstorage, if_pos rfl, find_shared hat.sound he, if_pos rfl,
          hidentity, hnumber_next]
      · rw [view_update sys _ e.name _ hstorage, if_neg hne]
      · rw [about_update sys id _ hunsent, if_pos rfl, hout, ← hidentity, ← hnumber_next]
        exact List.filter_eq_self.mpr fun m hm => by
          rw [List.mem_singleton.mp hm]
          exact concerns_update.mpr rfl
      · rw [about_update sys id _ hunsent, if_neg hne]
      · rw [← hnumber_next]
        refine hnear node { e with value := value, seq_num := e.seq_num.next } e' ?_ hfind'
        rw [find_revise hat.sound he, if_pos rfl]
    · have hother : id ≠ e.id := by
        intro heq
        exact hname (hat.name_eq hid (heq ▸ hat.id_eq he))
      refine ⟨course, h.frame (view_same hstorage ?_) htoward (about_same hunsent ?_),
        .refl _ _⟩
      · rw [find_shared hat.sound he, if_neg hname]
        rfl
      · rw [hsilent, hout, List.filter_eq_nil_iff]
        intro m hm
        rw [List.mem_singleton.mp hm, concerns_update]
        exact hother

theorem advanced_queue (huid : Function.Injective uid) (hs : Standing uid ids sys)
    (h : Tracks owner trace t sys name id course)
    {o : Outgoing} {rest : List Outgoing} (hthread : sys.unsent thread = o :: rest)
    (hsent : ∀ link, Sends uid thread o link →
      (sys.sender link).QueueOutgoing o.msg = some (sys'.sender link))
    (hothers : ∀ link, ¬ Sends uid thread o link → sys'.sender link = sys.sender link)
    (hview : ∀ node, sys'.view name node = sys.view name node)
    (hunsent : sys'.unsent = Function.update sys.unsent thread rest)
    (hflight : sys'.inFlight = sys.inFlight) : Advanced owner trace (t + 1) sys' name id course := by
  have hall := hs.tells thread
  rw [hthread, Tells, List.forall_mem_cons] at hall
  obtain ⟨⟨⟨id', hid'⟩, hexcept⟩, -⟩ := hall
  have hsame : ∀ link, sys'.sender link = sys.sender link → sys'.toward id link = sys.toward id link :=
    fun link heq => by rw [System.toward, System.toward, heq, hflight]
  have hqueued : ∀ link, Sends uid thread o link → ∃ c', sys'.sender link = c' ∧
      c'.outgoing = (sys.sender link).outgoing ∧ those (concerns id') c'.pending_outgoing = [o.msg] ∧
      ∀ id'' ≠ id', those (concerns id'') c'.pending_outgoing =
        those (concerns id'') (sys.sender link).pending_outgoing := by
    intro link hsends
    obtain ⟨c', hc', -, hrest⟩ := (hs.carries link).queue hid'
    exact ⟨c', Option.some.inj ((hsent link hsends).symm.trans hc'), hrest⟩
  by_cases hid : id = id'
  · subst hid
    have hthread : sys.about id thread = o.msg :: sys'.about id thread := by
      rw [about_update sys id thread hunsent, if_pos rfl, System.about, hthread, List.map_cons,
        List.filter_cons_of_pos ((concerns_of_entry hid'.entry).mpr rfl)]
    have hfeeds : Feeds owner name thread := h.silent thread (by
      rw [hthread]
      exact List.cons_ne_nil _ _)
    have habouts : ∀ thread' ≠ thread, sys'.about id thread' = sys.about id thread' :=
      fun thread' hne => by rw [about_update sys id thread' hunsent, if_neg hne]
    refine (h.queue hview hthread habouts (fun link hboth => ?_) fun link hnot => ?_).advanced
    · obtain ⟨c', hc', houtgoing, hthose, -⟩ :=
        hqueued link ((sends_iff huid hfeeds hexcept).mpr hboth)
      refine ⟨_, _, (List.append_assoc ..).symm, ?_⟩
      rw [System.toward, hc', hflight, houtgoing, hthose, List.append_assoc]
    · exact hsame link (hothers link fun hsends => hnot ((sends_iff huid hfeeds hexcept).mp hsends))
  · refine (h.frame hview (fun link => ?_) (about_same hunsent ?_)).advanced
    · by_cases hsends : Sends uid thread o link
      · obtain ⟨c', hc', houtgoing, -, hothers⟩ := hqueued link hsends
        rw [System.toward, System.toward, hc', hflight, houtgoing, hothers id hid]
      · exact hsame link (hothers link hsends)
    · rw [System.about, hthread, List.map_cons,
        List.filter_cons_of_neg fun hc => hid ((concerns_of_entry hid'.entry).mp hc)]

theorem toward_write (hs : Standing uid ids sys) {batch : List (Option Message)}
    {rest : List (List (Option Message))} (hbatch : (sys.sender link).outgoing = batch :: rest)
    (hsender : sys'.sender = Function.update sys.sender link
      { sys.sender link with outgoing := rest })
    (hflight : sys'.inFlight = Function.update sys.inFlight link
      (sys.inFlight link ++ arriving 0x0300 batch)) (link' : Link ι) :
    sys'.toward id link' = sys.toward id link' := by
  unfold System.toward
  rw [hsender, hflight]
  obtain rfl | hne := eq_or_ne link' link
  · have harriving := ((hs.carries link').write hbatch).1
    rw [Function.update_self, Function.update_self, hbatch, harriving, List.filter_append,
      List.flatten_cons, those_append, List.append_assoc, List.append_assoc]
    rfl
  · rw [Function.update_of_ne hne, Function.update_of_ne hne]

theorem advanced_deliver (hs : Standing uid ids sys) (hid : ids name = some id)
    (h : Tracks owner trace t sys name id course)
    {rest : List Message} {effects : Effects} (hidle : sys.unsent (.reader link) = [])
    (hmsg : sys.inFlight link = m :: rest)
    (hprocess : (sys.storage link.target).ProcessIncoming ⟨uid link.peer, 0x0300⟩ m =
      some (s, effects))
    (hstorage : sys'.storage = Function.update sys.storage link.target s)
    (hflight : sys'.inFlight = Function.update sys.inFlight link rest)
    (hunsent : sys'.unsent = Function.update sys.unsent (.reader link) effects.outgoing)
    (hsender : sys'.sender = sys.sender) : Advanced owner trace (t + 1) sys' name id course := by
  have hat := hs.knows link.target
  have hregular := (hs.carries link).inFlight m (hmsg ▸ List.mem_cons_self)
  have hsilent : sys.about id (.reader link) = [] := by
    rw [System.about, hidle]
    rfl
  have hlinks : ∀ link' ≠ link, sys'.toward id link' = sys.toward id link' := by
    intro link' hne
    rw [System.toward, hflight, Function.update_of_ne hne, hsender]
    rfl
  have hlink : sys.toward id link =
      if concerns id m then m :: sys'.toward id link else sys'.toward id link := by
    rw [System.toward, System.toward, hflight, Function.update_self, hmsg, hsender, List.filter_cons]
    split <;> rfl
  obtain ⟨s, effects, hcase, hcases⟩ := processRegular_cases hat hregular ⟨uid link.peer, 0x0300⟩
  obtain ⟨rfl, rfl⟩ : _ ∧ _ := by simpa [hcase] using hprocess
  obtain ⟨rfl, hout, hearlier⟩ | ⟨e, he, seq_num, value, rfl, -, rfl, hout⟩ := hcases
  · have hview : ∀ node, sys'.view name node = sys.view name node := view_same hstorage rfl
    have habouts : ∀ thread, sys'.about id thread = sys.about id thread :=
      about_same hunsent (by rw [hsilent, hout]; rfl)
    by_cases hconcerns : concerns id m
    · rw [if_pos hconcerns] at hlink
      refine (h.pass hview habouts hlink hlinks fun k hm hge hle => ?_).advanced
      obtain ⟨e, hfind, hshared⟩ := Option.map_eq_some_iff.mp (h.held link.target)
      have hnumber : e.seq_num = course.number (course.version link.target) :=
        congrArg (·.2.2) hshared
      have hle' := hearlier e (mem_of_find hfind).1 (course.number k).value (course.value k)
        (hm.trans (by rw [show e.id = id from congrArg (·.1) hshared]; rfl))
      rw [hnumber] at hle'
      exact (Course.lessEqual_iff h.first hge hle).mp hle'
    · rw [if_neg hconcerns] at hlink
      refine (h.frame hview (fun link' => ?_) habouts).advanced
      obtain rfl | hne := eq_or_ne link' link
      · exact hlink.symm
      · exact hlinks link' hne
  · by_cases hconcerns : id = e.id
    · subst hconcerns
      obtain rfl : name = e.name := hat.name_eq hid (hat.id_eq he)
      rw [if_pos (concerns_update.mpr rfl)] at hlink
      refine h.take hlink rfl ?_ (fun node hne => ?_) hlinks (fun thread hne => ?_) hsilent ?_
      · rw [view_update sys _ e.name _ hstorage, if_pos rfl, find_shared hat.sound he, if_pos rfl]
      · rw [view_update sys _ e.name _ hstorage, if_neg hne]
      · rw [about_update sys e.id thread hunsent, if_neg hne]
      · rw [about_update sys e.id _ hunsent, if_pos rfl, hout, relay, queueIfSet, hat.queue_outgoing]
        by_cases hserver : link.target = .server
        · rw [if_pos (hat.server.mpr hserver), if_pos hserver, if_pos rfl]
          exact List.filter_eq_self.mpr fun m hm => by
            rw [List.mem_singleton.mp hm]
            exact concerns_update.mpr rfl
        · rw [if_neg fun hset => hserver (hat.server.mp hset), if_neg hserver]
          rfl
    · rw [if_neg fun hc => hconcerns (concerns_update.mp hc)] at hlink
      have hname : name ≠ e.name := by
        intro heq
        have hids := hat.id_eq he
        rw [← heq, hid] at hids
        exact hconcerns (Option.some.inj hids)
      refine (h.frame (view_same hstorage ?_) (fun link' => ?_) (about_same hunsent ?_)).advanced
      · rw [find_shared hat.sound he, if_neg hname]
        rfl
      · obtain rfl | hne := eq_or_ne link' link
        · exact hlink.symm
        · exact hlinks link' hne
      · rw [hsilent, hout, List.filter_eq_nil_iff]
        intro m hm
        unfold relay queueIfSet at hm
        split at hm
        · split at hm
          · rw [List.mem_singleton.mp hm, concerns_update]
            exact hconcerns
          · exact absurd hm List.not_mem_nil
        · exact absurd hm List.not_mem_nil

theorem advanced_carry (huid : Function.Injective uid) (hs : Standing uid ids sys)
    (hid : ids name = some id) (h : Tracks owner trace t sys name id course)
    (hcarry : sys.Carry uid sys') : Advanced owner trace (t + 1) sys' name id course := by
  cases hcarry with
  | queue hthread hsent hothers =>
    exact advanced_queue huid hs h hthread hsent hothers (fun _ => rfl) rfl rfl
  | post link keep_alive now =>
    refine Tracks.advanced (h.frame (fun _ => rfl) (fun link' => ?_) fun _ => rfl)
    exact toward_post keep_alive now link' rfl rfl
  | write hbatch =>
    refine Tracks.advanced (h.frame (fun _ => rfl) (fun link' => ?_) fun _ => rfl)
    exact toward_write hs hbatch rfl rfl link'
  | deliver hidle hmsg hprocess =>
    exact advanced_deliver hs hid h hidle hmsg hprocess rfl rfl rfl rfl

theorem tracks_step (huid : Function.Injective uid) (hs : Standing uid ids sys)
    (hid : ids name = some id) (h : Tracks owner trace t sys name id course)
    (hstep : sys.Step owner uid sys') (htrace : trace (t + 1) = sys') :
    ∃ course', Tracks owner trace (t + 1) sys' name id course' ∧
      course.Continues (owner name).1 course' := by
  cases hstep with
  | set hidle hthere hvalue hset hnear =>
    exact tracks_set hs hid h htrace hidle hthere hset rfl rfl (fun _ => rfl) hnear
  | carry hcarry =>
    obtain ⟨version, h', hle, -⟩ := advanced_carry huid hs hid h hcarry
    exact ⟨_, h', hle, fun _ _ => rfl⟩

theorem tracks_later (huid : Function.Injective uid) (hid : ids name = some id)
    (htrace : IsTrace (System.Step owner uid) trace) (hs : Standing uid ids (trace t))
    (h : Tracks owner trace t (trace t) name id course) {u : ℕ} (htu : t ≤ u) :
    ∃ course', Tracks owner trace u (trace u) name id course' ∧
      course.Continues (owner name).1 course' := by
  induction u, htu using Nat.le_induction with
  | base => exact ⟨course, h, .refl _ _⟩
  | succ u htu ih =>
    obtain ⟨course', h', hcontinues⟩ := ih
    obtain hsame | hstep := htrace u
    · rw [hsame]
      exact ⟨course', h'.frame (fun _ => rfl) (fun _ => rfl) fun _ => rfl, hcontinues⟩
    · have hs' := standing_run hs (htrace.run htu)
      obtain ⟨course'', h'', hcontinues'⟩ := tracks_step huid hs' hid h' hstep rfl
      exact ⟨course'', h'', hcontinues.trans hcontinues'⟩

omit [DecidableEq ι] in
/-- With nothing on its way there is one version. -/
theorem Tracks.settled (h : Tracks owner trace t sys name id course) (hquiet : sys.Quiet)
    (node : Node ι) : sys.view name node = sys.view name (owner name).1 := by
  have heq : ∀ link, Along (owner name).1 link →
      course.version link.target = course.version link.source := by
    intro link halong
    obtain ⟨q, hq, htrail⟩ := h.along link halong
    have hnothing : sys.toward id link ++ sys.about id (feeder owner name link) = [] := by
      obtain ⟨houtgoing, hpending⟩ := hquiet.sender link
      rw [System.toward, System.about, houtgoing, hpending, hquiet.inFlight, hquiet.unsent]
      rfl
    rw [hnothing] at hq
    obtain rfl := List.map_eq_nil_iff.mp hq.symm
    exact htrail
  have hall : course.version node = course.version (owner name).1 :=
    forall_node (P := fun node => course.version node = course.version (owner name).1) rfl
      (fun link halong hsource => (heq link halong).trans hsource) node
  rw [h.held, h.held, hall]

/-- Two views in their order. -/
theorem Tracks.views_was (huid : Function.Injective uid) (hid : ids name = some id)
    (htrace : IsTrace (System.Step owner uid) trace) (hs : Standing uid ids (trace t))
    (h : Tracks owner trace t (trace t) name id course) (node : Node ι) {u : ℕ} (htu : t ≤ u) :
    ∃ was ≤ t, ∃ was' ≤ u, was ≤ was' ∧
      (trace t).view name node = (trace was).view name (owner name).1 ∧
      (trace u).view name node = (trace was').view name (owner name).1 := by
  obtain ⟨course', h', hcontinues⟩ := tracks_later huid hid htrace hs h htu
  have hroot := h.le_root node
  have hroot' := h'.le_root node
  obtain ⟨hwas, hview⟩ := h.was _ hroot
  obtain ⟨hwas', hview'⟩ := h'.was _ hroot'
  have horder := h'.order _ hroot' _ (hcontinues.version node)
  rw [hcontinues.was _ hroot] at horder
  exact ⟨_, hwas, _, hwas', horder, (h.held node).trans hview.symm,
    (h'.held node).trans hview'.symm⟩

end Steps

section Start

/-- Every name is tracked from the start, or is nowhere. -/
theorem tracks_of_start (huid : Function.Injective uid) (h : (trace 0).Start)
    (htrace : IsTrace (System.Step owner uid) trace) (t : ℕ) (name : Bytes) :
    ∃ ids, Standing uid ids (trace t) ∧ (ids name = none ∨
      ∃ id course, ids name = some id ∧ Tracks owner trace t (trace t) name id course) := by
  have hs := standing_start uid h
  refine ⟨_, standing_run hs (htrace.run (Nat.zero_le t)), ?_⟩
  cases hfind : ((trace 0).storage .server).find name with
  | none => exact .inl (by rw [Option.map_none])
  | some e =>
    obtain ⟨value, hvalue⟩ := Option.ne_none_iff_exists'.mp
      ((h.sound .server).values e (mem_of_find hfind).1)
    have hid : (((trace 0).storage .server).find name).map (·.id) = some e.id := by
      rw [hfind, Option.map_some]
    obtain ⟨course, htracks, -⟩ :=
      tracks_later huid hid htrace hs (tracks_start h hfind hvalue) (Nat.zero_le t)
    exact .inr ⟨e.id, course, by rw [Option.map_some], htracks⟩

theorem tracks_of_run (huid : Function.Injective uid) (h : start.Start)
    (hrun : Run owner uid start sys) (name : Bytes) : ∃ ids, Standing uid ids sys ∧
      (ids name = none ∨ ∃ trace t id course, ids name = some id ∧
        Tracks owner trace t sys name id course) := by
  obtain ⟨trace, t, htrace, rfl, rfl⟩ := exists_trace hrun
  obtain ⟨ids, hs, hnone | ⟨id, course, hid, htracks⟩⟩ := tracks_of_start huid h htrace t name
  · exact ⟨ids, hs, .inl hnone⟩
  · exact ⟨ids, hs, .inr ⟨trace, t, id, course, hid, htracks⟩⟩

end Start

section OneClient

variable (sys : System Unit) (update : Message) (s : Storage) (uid : ℕ)

def clientQueued : System Unit := { sys with
  sender := Function.update sys.sender (.up ())
    { pending_outgoing := [some update], pending_update := [(1, 0)] }
  unsent := Function.update sys.unsent (.user (.client ()) 0) [] }

def clientPosted : System Unit := { sys with
  sender := Function.update sys.sender (.up ()) ((sys.sender (.up ())).PostOutgoing true 0) }

def clientWritten : System Unit := { sys with
  sender := Function.update sys.sender (.up ()) { sys.sender (.up ()) with outgoing := [] }
  inFlight := Function.update sys.inFlight (.up ())
    (sys.inFlight (.up ()) ++ arriving 0x0300 [some update]) }

def serverRead : System Unit := { sys with
  storage := Function.update sys.storage .server s
  inFlight := Function.update sys.inFlight (.up ()) []
  unsent := Function.update sys.unsent (.reader (.up ())) [⟨update, some uid⟩] }

def serverRelayed : System Unit := { sys with
  unsent := Function.update sys.unsent (.reader (.up ())) [] }

/-- The way of the one update that the only client has to send, of the entry with the id 0. It
leaves `s` at the server. -/
def delivery : ℕ → System Unit
  | 0 => sys
  | 1 => clientQueued sys update
  | 2 => clientPosted (clientQueued sys update)
  | 3 => clientWritten (clientPosted (clientQueued sys update)) update
  | 4 => serverRead (clientWritten (clientPosted (clientQueued sys update)) update) update s uid
  | _ => serverRelayed
      (serverRead (clientWritten (clientPosted (clientQueued sys update)) update) update s uid)

variable {sys update s uid} {effects : Effects}

/-- Every step of the way is one of the system, and then there is no further one. -/
theorem delivery_carry (hunsent : sys.unsent (.user (.client ()) 0) = [⟨update, none⟩])
    (hreader : sys.unsent (.reader (.up ())) = []) (hflight : sys.inFlight (.up ()) = [])
    (hqueue : (sys.sender (.up ())).QueueOutgoing update =
      some { pending_outgoing := [some update], pending_update := [(1, 0)] })
    (harrives : arriving 0x0300 [some update] = [update])
    (hprocess : (sys.storage .server).ProcessIncoming ⟨uid, 0x0300⟩ update = some (s, effects))
    (hrelays : effects.outgoing = [⟨update, some uid⟩]) (n : ℕ) :
    delivery sys update s uid (n + 1) = delivery sys update s uid n ∨
      (delivery sys update s uid n).Carry (fun _ => uid) (delivery sys update s uid (n + 1)) := by
  have hposted : ((clientPosted (clientQueued sys update)).sender (.up ())).outgoing =
      [[some update]] := by
    simp [clientPosted, clientQueued, NetworkConnection.PostOutgoing]
  match n with
  | 0 =>
    refine .inr (.queue hunsent (fun link hsends => ?_) fun link hnot => ?_)
    · cases link with
      | up i => rwa [Function.update_self]
      | down i => cases hsends.1
    · cases link with
      | up i => exact absurd ⟨rfl, (Option.some_ne_none _).symm⟩ hnot
      | down i => rfl
  | 1 => exact .inr (.post (.up ()) true 0)
  | 2 => exact .inr (.write hposted)
  | 3 =>
    have hread : (clientWritten (clientPosted (clientQueued sys update)) update).inFlight (.up ()) =
        [update] := by
      simp [clientWritten, clientPosted, clientQueued, hflight, harrives]
    have hidle : (clientWritten (clientPosted (clientQueued sys update)) update).unsent
        (.reader (.up ())) = [] := by
      simp [clientWritten, clientPosted, clientQueued, hreader]
    have hdelivered := @System.Carry.deliver _ _ (fun _ => uid)
      (clientWritten (clientPosted (clientQueued sys update)) update) (.up ()) update [] s effects
      hidle hread hprocess
    rw [hrelays] at hdelivered
    exact .inr hdelivered
  | 4 =>
    refine .inr (@System.Carry.queue _ _ _ (delivery sys update s uid 4) (.reader (.up ()))
      ⟨update, some uid⟩ [] (delivery sys update s uid 4).sender ?_ (fun link hsends => ?_)
      fun link hnot => rfl)
    · simp only [delivery, serverRead, Function.update_self]
    · exact absurd rfl hsends.2
  | _ + 5 => exact .inl rfl

end OneClient

section Flag

/-- What both nodes have: one boolean, set for the n-th time. -/
def flagStorage (server : Bool) (n : ℕ) (b : Bool) : Storage :=
  { entries := [⟨0, [97], some (.boolean b), 0, 0, ⟨n⟩, false, 0⟩], idmap := [some 0]
    server := server, queue_outgoing := true, allocated := 1 }

def flagNode (client server : ℕ × Bool) : Node Unit → Storage
  | .server => flagStorage true server.1 server.2
  | .client _ => flagStorage false client.1 client.2

def flagUpdate : Message := entryUpdate 0 1 (.boolean false)

def flagStart : System Unit := ⟨flagNode (0, true) (0, true), fun _ => {}, fun _ => [], fun _ => []⟩

/-- The client has set the flag. -/
def flagSet : System Unit := { flagStart with
  storage := Function.update flagStart.storage (.client ()) (flagStorage false 1 false)
  unsent := Function.update flagStart.unsent (.user (.client ()) 0) [⟨flagUpdate, none⟩] }

def flagSent : System Unit := delivery flagSet flagUpdate (flagStorage true 1 false) 7 3

/-- The server has read it. -/
def flagRead : System Unit := delivery flagSet flagUpdate (flagStorage true 1 false) 7 4

def flagQuiet : System Unit := delivery flagSet flagUpdate (flagStorage true 1 false) 7 5

def flagTrace : ℕ → System Unit
  | 0 => flagStart
  | n + 1 => delivery flagSet flagUpdate (flagStorage true 1 false) 7 n

def flagOwner (_ : Bytes) : Node Unit × ℕ := (.client (), 0)

def flagUid (_ : Unit) : ℕ := 7

theorem sound_flag (server : Bool) (n : ℕ) (b : Bool) : (flagStorage server n b).Sound := by
  refine ⟨?_, ?_, ?_, ?_, ?_, fun id address h => ?_⟩
  any_goals simp [flagStorage]
  cases id with
  | zero => simpa [flagStorage, eq_comm] using h
  | succ id => simp [flagStorage] at h

theorem start_flag : flagStart.Start := by
  refine ⟨?_, ?_, ?_, ?_, ?_, ?_, fun _ => ⟨rfl, rfl, rfl⟩, fun _ => rfl, fun _ => rfl⟩
  · rintro (_ | _) <;> exact sound_flag ..
  · rintro (_ | _) <;> simp [flagStart, flagNode, flagStorage]
  · rintro (_ | _) <;> simp [flagStart, flagNode, flagStorage]
  · rintro (_ | _) <;> rfl
  · rintro (_ | _) name <;> rfl
  · intro name e hfind
    obtain ⟨he, -⟩ := mem_of_find hfind
    obtain rfl := List.mem_singleton.mp he
    decide

theorem near_flag : flagStart.Near [97] (flagStorage false 1 false) := by
  intro node e e' hfind hfind'
  obtain rfl := List.mem_singleton.mp (mem_of_find hfind).1
  have hseq : e'.seq_num = ⟨0⟩ := by
    cases node <;> rw [List.mem_singleton.mp (mem_of_find hfind').1]
  rw [hseq]
  decide

theorem carried_boolean (b : Bool) : (Value.boolean b).Carried 0x0300 :=
  fun _ _ => ⟨trivial, rfl⟩

theorem trace_flag : IsTrace (System.Step flagOwner flagUid) flagTrace := by
  have hset : flagStart.Step flagOwner flagUid flagSet :=
    @System.Step.set _ _ _ _ flagStart [97] (.boolean false) true (flagStorage false 1 false)
      ⟨[], [⟨flagUpdate, none⟩], []⟩ rfl rfl (carried_boolean false) rfl near_flag
  intro n
  match n with
  | 0 => exact .inr hset
  | n + 1 =>
    exact (delivery_carry rfl rfl rfl rfl rfl rfl rfl n).imp id .carry

theorem run_sent : Run flagOwner flagUid flagStart flagSent := trace_flag.run (Nat.zero_le 4)

theorem quiet_flag : flagQuiet.Quiet :=
  ⟨by rintro (_ | _) <;> exact ⟨rfl, rfl⟩, by rintro (_ | _) <;> rfl, fun thread => by
    simp only [flagQuiet, delivery, serverRelayed, serverRead, clientWritten, clientPosted,
      clientQueued, flagSet, flagStart, Function.update_apply]
    split_ifs <;> rfl⟩

end Flag

/-- When there is nothing to be sent and nothing to be read, every node has the owner's values. -/
theorem agree_when_quiet (huid : Function.Injective uid) (hstart : start.Start)
    (hrun : Run owner uid start sys) (hquiet : sys.Quiet) (name : Bytes) (node : Node ι) :
    sys.view name node = sys.view name (owner name).1 := by
  obtain ⟨ids, hs, hnone | ⟨trace, t, id, course, -, h⟩⟩ := tracks_of_run huid hstart hrun name
  · rw [hs.view_none hnone, hs.view_none hnone]
  · exact h.settled hquiet node

theorem agree_when_quiet_flag : flagQuiet.view [97] .server = flagQuiet.view [97] (.client ()) :=
  agree_when_quiet (fun _ _ _ => rfl) start_flag (trace_flag.run (Nat.zero_le 6)) quiet_flag [97]
    .server

/-- What a node shows at a moment is what the owner showed then or before, and it never goes back
to what the owner showed earlier. -/
theorem shown_in_order (huid : Function.Injective uid) (hstart : (trace 0).Start)
    (htrace : IsTrace (System.Step owner uid) trace) (name : Bytes) (node : Node ι) {t u : ℕ}
    (htu : t ≤ u) : ∃ was ≤ t, ∃ was' ≤ u, was ≤ was' ∧
      (trace t).view name node = (trace was).view name (owner name).1 ∧
      (trace u).view name node = (trace was').view name (owner name).1 := by
  obtain ⟨ids, hs, hnone | ⟨id, course, hid, h⟩⟩ := tracks_of_start huid hstart htrace t name
  · have hs' := standing_run hs (htrace.run htu)
    exact ⟨t, le_refl t, u, le_refl u, htu, by rw [hs.view_none hnone, hs.view_none hnone],
      by rw [hs'.view_none hnone, hs'.view_none hnone]⟩
  · exact h.views_was huid hid htrace hs node htu

theorem shown_in_order_flag : ∃ was ≤ 4, ∃ was' ≤ 5, was ≤ was' ∧
    flagSent.view [97] .server = (flagTrace was).view [97] (.client ()) ∧
    flagRead.view [97] .server = (flagTrace was').view [97] (.client ()) :=
  shown_in_order (fun _ _ _ => rfl) start_flag trace_flag [97] .server (Nat.le_succ 4)

/-- Whatever is on its way, no node and no connection gets into undefined behaviour over it. -/
theorem network_defined (hstart : start.Start) (hrun : Run owner uid start sys) :
    (∀ link, ∀ msg ∈ sys.inFlight link,
      ((sys.storage link.target).ProcessIncoming ⟨uid link.peer, 0x0300⟩ msg).isSome) ∧
    (∀ thread, ∀ o ∈ sys.unsent thread, ∀ link, ((sys.sender link).QueueOutgoing o.msg).isSome) ∧
    ∀ node name value, ((sys.storage node).find name).isSome →
      ((sys.storage node).SetEntryValue name (some value)).isSome := by
  have hs := standing_run (standing_start uid hstart) hrun
  refine ⟨fun link msg hmsg => ?_, fun thread o ho link => ?_, fun node name value hthere => ?_⟩
  · obtain ⟨s, effects, hprocess, -⟩ := processRegular_cases (hs.knows link.target)
      ((hs.carries link).inFlight msg hmsg) ⟨uid link.peer, 0x0300⟩
    rw [hprocess]
    rfl
  · obtain ⟨⟨id, hid⟩, -⟩ := hs.tells thread o ho
    obtain ⟨c', hc', -⟩ := (hs.carries link).queue hid
    rw [hc']
    rfl
  · obtain ⟨e, hfind⟩ := Option.isSome_iff_exists.mp hthere
    have hat := hs.knows node
    obtain ⟨r, s, effects, hset, -⟩ :=
      setEntryValue_cases value hat.sound hat.room hat.queue_outgoing hfind
    rw [hset]
    rfl

theorem network_defined_flag :
    ((flagSent.storage .server).ProcessIncoming ⟨7, 0x0300⟩ flagUpdate).isSome :=
  (network_defined start_flag
    run_sent).1 (.up ()) flagUpdate (.head _)

end SparxRobot.NetworkTables

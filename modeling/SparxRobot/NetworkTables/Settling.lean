import Mathlib.Data.Set.Finite.Basic
import SparxRobot.NetworkTables.Convergence

/-! When no more values are set, the messages can be carried until all nodes agree: first what the
threads hold, then what is on its way to the server, then what is on its way to the clients. -/
namespace SparxRobot.NetworkTables
open Message NetworkConnection Storage

section Links

variable {ι : Type} {sys sys' : System ι} {link : Link ι}

/-- What reading from a link may add to: what the server is to send. -/
def Touches (link link' : Link ι) : Prop := link.target = .server ∧ link'.source = .server

/-- Nothing is on its way. -/
def Drained (sys : System ι) (link : Link ι) : Prop :=
  ((sys.sender link).outgoing = [] ∧ (sys.sender link).pending_outgoing = []) ∧
    sys.inFlight link = []

/-- Nothing happens to a link. -/
def Same (sys sys' : System ι) (link : Link ι) : Prop :=
  sys'.sender link = sys.sender link ∧ sys'.inFlight link = sys.inFlight link

theorem Same.trans {sys'' : System ι} (h : Same sys sys' link) (h' : Same sys' sys'' link) :
    Same sys sys'' link := ⟨h'.1.trans h.1, h'.2.trans h.2⟩

theorem Drained.same (h : Drained sys link) (hsame : Same sys sys' link) : Drained sys' link := by
  rw [Drained, hsame.1, hsame.2]
  exact h

end Links

variable {ι : Type} [DecidableEq ι] {owner : Bytes → Node ι × ℕ} {uid : ι → ℕ}
  {ids : Bytes → Option ℕ} {start sys sys' : System ι} {link : Link ι}

/-- Messages get on, and no value is set. -/
abbrev Passes (uid : ι → ℕ) : System ι → System ι → Prop := Relation.ReflTransGen (System.Carry uid)

theorem Passes.run (h : Passes uid sys sys') : Run owner uid sys sys' :=
  Relation.ReflTransGen.mono (fun _ _ hcarry => System.Step.carry hcarry) sys sys' h

theorem standing_passes (h : Standing uid ids sys) (hpasses : Passes uid sys sys') :
    Standing uid ids sys' := by
  induction hpasses with
  | refl => exact h
  | tail _ hcarry ih => exact standing_carry ih hcarry

/-- A thread queues what it holds. -/
theorem flush (thread : Thread ι) (h : Standing uid ids sys) : ∃ sys', Passes uid sys sys' ∧
    sys'.unsent thread = [] ∧ (∀ t ≠ thread, sys'.unsent t = sys.unsent t) ∧
    sys'.inFlight = sys.inFlight ∧
    ∀ link, link.source ≠ thread.node → sys'.sender link = sys.sender link := by
  classical
  generalize hl : sys.unsent thread = l
  induction l generalizing sys with
  | nil => exact ⟨sys, .refl, hl, fun _ _ => rfl, rfl, fun _ _ => rfl⟩
  | cons o rest ih =>
    obtain ⟨⟨id, hid⟩, -⟩ := h.tells thread o (hl ▸ List.mem_cons_self)
    have hcarry : sys.Carry uid { sys with
        sender := fun link => if Sends uid thread o link then
          ((sys.sender link).QueueOutgoing o.msg).getD {} else sys.sender link
        unsent := Function.update sys.unsent thread rest } := by
      refine .queue hl (fun link hsends => ?_) fun link hnot => if_neg hnot
      obtain ⟨c', hc', -⟩ := (h.carries link).queue hid
      rw [if_pos hsends, hc', Option.getD_some]
    obtain ⟨sys', hpasses, hempty, hothers, hflight, hsender⟩ :=
      ih (standing_carry h hcarry) (Function.update_self ..)
    refine ⟨sys', .head hcarry hpasses, hempty, fun t hne => ?_, hflight, fun link hne => ?_⟩
    · exact (hothers t hne).trans (Function.update_of_ne hne ..)
    · exact (hsender link hne).trans (if_neg fun hsends => hne hsends.1)

theorem flush_all (threads : Finset (Thread ι)) (h : Standing uid ids sys)
    (hothers : ∀ t ∉ threads, sys.unsent t = []) :
    ∃ sys', Passes uid sys sys' ∧ ∀ t, sys'.unsent t = [] := by
  induction threads using Finset.induction_on generalizing sys with
  | empty => exact ⟨sys, .refl, fun t => hothers t (Finset.notMem_empty t)⟩
  | insert thread threads hnew ih =>
    obtain ⟨sys₁, hpasses, hempty, hsame, -⟩ := flush thread h
    have hothers₁ : ∀ t ∉ threads, sys₁.unsent t = [] := by
      intro t ht
      by_cases heq : t = thread
      · rw [heq, hempty]
      · rw [hsame t heq]
        exact hothers t fun hmem => (Finset.mem_insert.mp hmem).elim heq ht
    obtain ⟨sys', hpasses', hall⟩ := ih (standing_passes h hpasses) hothers₁
    exact ⟨sys', hpasses.trans hpasses', hall⟩

/-- The write thread sends the batches. -/
theorem write_all (link : Link ι) (h : Standing uid ids sys) : ∃ sys', Passes uid sys sys' ∧
    sys'.sender link = { sys.sender link with outgoing := [] } ∧ sys'.unsent = sys.unsent ∧
    ∀ link' ≠ link, sys'.sender link' = sys.sender link' ∧
      sys'.inFlight link' = sys.inFlight link' := by
  generalize hl : (sys.sender link).outgoing = l
  induction l generalizing sys with
  | nil => exact ⟨sys, .refl, by rw [← hl], rfl, fun _ _ => ⟨rfl, rfl⟩⟩
  | cons batch rest ih =>
    have hcarry := @System.Carry.write _ _ uid _ _ _ _ hl
    obtain ⟨sys', hpasses, hsender, hunsent, hothers⟩ :=
      ih (standing_carry h hcarry) (by dsimp only; rw [Function.update_self])
    refine ⟨sys', .head hcarry hpasses, ?_, hunsent, fun link' hne => ?_⟩
    · rw [hsender]
      dsimp only
      rw [Function.update_self]
    · obtain ⟨hsame, hflight⟩ := hothers link' hne
      exact ⟨hsame.trans (Function.update_of_ne hne ..),
        hflight.trans (Function.update_of_ne hne ..)⟩

/-- A node reads a message, and the server sends it on. -/
theorem deliver_one {msg : Message} {rest : List Message} (h : Standing uid ids sys)
    (hempty : ∀ t, sys.unsent t = []) (hl : sys.inFlight link = msg :: rest) :
    ∃ sys', Passes uid sys sys' ∧ (∀ t, sys'.unsent t = []) ∧
      sys'.inFlight = Function.update sys.inFlight link rest ∧
      ∀ link', ¬ Touches link link' → sys'.sender link' = sys.sender link' := by
  have hregular := (h.carries link).inFlight msg (hl ▸ List.mem_cons_self)
  obtain ⟨s, effects, hprocess, hcases⟩ :=
    processRegular_cases (h.knows link.target) hregular ⟨uid link.peer, 0x0300⟩
  have hcarry := System.Carry.deliver (hempty _) hl hprocess
  have hothers : ∀ t ≠ .reader link,
      Function.update sys.unsent (.reader link) effects.outgoing t = [] :=
    fun t hne => (Function.update_of_ne hne ..).trans (hempty t)
  by_cases hserver : link.target = .server
  · obtain ⟨sys', hpasses, hflushed, hkept, hflight, hsender⟩ :=
      flush (.reader link) (standing_carry h hcarry)
    refine ⟨sys', .head hcarry hpasses, fun t => ?_, hflight, fun link' hnot => ?_⟩
    · by_cases heq : t = .reader link
      · rw [heq, hflushed]
      · exact (hkept t heq).trans (hothers t heq)
    · exact hsender link' fun hsource => hnot ⟨hserver, hsource.trans hserver⟩
  · have hnothing : effects.outgoing = [] := by
      obtain ⟨-, hout, -⟩ | ⟨-, -, -, -, -, -, -, hout⟩ := hcases
      · exact hout
      · rw [hout, relay, if_neg fun hset => hserver ((h.knows link.target).server.mp hset)]
    refine ⟨_, .single hcarry, fun t => ?_, rfl, fun _ _ => rfl⟩
    by_cases heq : t = .reader link
    · rw [heq]
      exact (Function.update_self ..).trans hnothing
    · exact hothers t heq

/-- A node reads all that is in flight. -/
theorem deliver_all (link : Link ι) (h : Standing uid ids sys) (hempty : ∀ t, sys.unsent t = []) :
    ∃ sys', Passes uid sys sys' ∧ (∀ t, sys'.unsent t = []) ∧ sys'.inFlight link = [] ∧
      (∀ link' ≠ link, sys'.inFlight link' = sys.inFlight link') ∧
      ∀ link', ¬ Touches link link' → sys'.sender link' = sys.sender link' := by
  generalize hl : sys.inFlight link = l
  induction l generalizing sys with
  | nil => exact ⟨sys, .refl, hempty, hl, fun _ _ => rfl, fun _ _ => rfl⟩
  | cons msg rest ih =>
    obtain ⟨sys₁, hpasses, hempty₁, hflight, hsender⟩ := deliver_one h hempty hl
    obtain ⟨sys', hpasses', hempty', hread, hothers, hsender'⟩ :=
      ih (standing_passes h hpasses) hempty₁ (by rw [hflight, Function.update_self])
    refine ⟨sys', hpasses.trans hpasses', hempty', hread, fun link' hne => ?_, fun link' hnot => ?_⟩
    · rw [hothers link' hne, hflight, Function.update_of_ne hne]
    · rw [hsender' link' hnot, hsender link' hnot]

theorem pending_post (c : NetworkConnection) (keep_alive : Bool) (now : ℕ) :
    (c.PostOutgoing keep_alive now).pending_outgoing = [] := by
  unfold PostOutgoing
  split
  · next hempty =>
    have hnothing := List.isEmpty_iff.mp hempty
    split
    · exact hnothing
    · split <;> exact hnothing
  · rfl

theorem drain (link : Link ι) (h : Standing uid ids sys) (hempty : ∀ t, sys.unsent t = []) :
    ∃ sys', Passes uid sys sys' ∧ (∀ t, sys'.unsent t = []) ∧ Drained sys' link ∧
      ∀ link' ≠ link, ¬ Touches link link' → Same sys sys' link' := by
  have hpost := @System.Carry.post _ _ uid sys link false 0
  have hstanding := standing_carry h hpost
  obtain ⟨sys₁, hwrite, hsent, hunsent, hothers⟩ := write_all link hstanding
  obtain ⟨sys', hdeliver, hempty', hread, hflight, hsender⟩ :=
    deliver_all link (standing_passes hstanding hwrite) fun t => (congrFun hunsent t).trans (hempty t)
  have hself : ¬ Touches link link := fun htouch => source_ne_target (htouch.2.trans htouch.1.symm)
  refine ⟨sys', .head hpost (hwrite.trans hdeliver), hempty', ⟨?_, hread⟩, fun link' hne hnot => ?_⟩
  · rw [hsender link hself, hsent]
    dsimp only
    rw [Function.update_self]
    exact ⟨rfl, pending_post ..⟩
  · obtain ⟨hsame, hsame'⟩ := hothers link' hne
    refine ⟨(hsender link' hnot).trans (hsame.trans (Function.update_of_ne hne ..)), ?_⟩
    exact (hflight link' hne).trans hsame'

/-- Links that do not touch each other are drained one after the other. -/
theorem drain_all (dir : ι → Link ι) (hdir : ∀ i j, dir i = dir j → i = j)
    (hapart : ∀ i j, ¬ Touches (dir i) (dir j)) (is : Finset ι) (h : Standing uid ids sys)
    (hempty : ∀ t, sys.unsent t = []) : ∃ sys', Passes uid sys sys' ∧ (∀ t, sys'.unsent t = []) ∧
      (∀ i ∈ is, Drained sys' (dir i)) ∧
      ∀ link', (∀ i ∈ is, link' ≠ dir i ∧ ¬ Touches (dir i) link') → Same sys sys' link' := by
  induction is using Finset.induction_on generalizing sys with
  | empty => exact ⟨sys, .refl, hempty, by simp, fun _ _ => ⟨rfl, rfl⟩⟩
  | insert i is hnew ih =>
    obtain ⟨sys₁, hpasses, hempty₁, hdrained, hsame⟩ := drain (dir i) h hempty
    obtain ⟨sys', hpasses', hempty', hall, hsame'⟩ := ih (standing_passes h hpasses) hempty₁
    refine ⟨sys', hpasses.trans hpasses', hempty', fun j hj => ?_, fun link' hfar => ?_⟩
    · obtain rfl | hj := Finset.mem_insert.mp hj
      · refine hdrained.same (hsame' _ fun k hk => ⟨fun heq => ?_, hapart k j⟩)
        exact hnew (hdir _ _ heq ▸ hk)
      · exact hall j hj
    · obtain ⟨hne, hnot⟩ := hfar i (Finset.mem_insert_self ..)
      exact (hsame link' hne hnot).trans
        (hsame' link' fun j hj => hfar j (Finset.mem_insert_of_mem hj))

theorem unsent_finite (hstart : start.Start) (hrun : Run owner uid start sys) :
    {t | sys.unsent t ≠ []}.Finite := by
  induction hrun with
  | refl =>
    have hnone : {t | start.unsent t ≠ []} = ∅ :=
      Set.eq_empty_of_forall_notMem fun t ht => ht (hstart.unsent t)
    rw [hnone]
    exact Set.finite_empty
  | @tail sys sys' _ hstep ih =>
    have hupdate : ∀ thread l, {t | Function.update sys.unsent thread l t ≠ []}.Finite := by
      intro thread l
      refine (ih.insert thread).subset fun t ht => ?_
      by_cases heq : t = thread
      · exact .inl heq
      · have hne : Function.update sys.unsent thread l t ≠ [] := ht
        rw [Function.update_of_ne heq] at hne
        exact .inr hne
    cases hstep with
    | set => exact hupdate ..
    | carry hcarry =>
      cases hcarry with
      | queue => exact hupdate ..
      | post => exact ih
      | write => exact ih
      | deliver => exact hupdate ..

/-- What an owner shows does not change while messages get on. -/
theorem owner_view_carry (huid : Function.Injective uid) (hstart : start.Start)
    (hrun : Run owner uid start sys) (hcarry : sys.Carry uid sys') (name : Bytes) :
    sys'.view name (owner name).1 = sys.view name (owner name).1 := by
  obtain ⟨ids, hs, hnone | ⟨trace, t, id, course, hid, h⟩⟩ := tracks_of_run huid hstart hrun name
  · rw [hs.view_none hnone, (standing_carry hs hcarry).view_none hnone]
  · obtain ⟨version, h', -, hsame⟩ := advanced_carry huid hs hid h hcarry
    have hheld' := h'.held (owner name).1
    dsimp only at hheld'
    rw [hheld', h.held, hsame]
    rfl

theorem owner_view_passes (huid : Function.Injective uid) (hstart : start.Start)
    (hrun : Run owner uid start sys) (hpasses : Passes uid sys sys') (name : Bytes) :
    sys'.view name (owner name).1 = sys.view name (owner name).1 := by
  induction hpasses with
  | refl => rfl
  | tail hbefore hcarry ih =>
    rw [owner_view_carry huid hstart (hrun.trans (Passes.run hbefore)) hcarry, ih]

/-- In every state there is a way to carry the messages until nothing is left to be carried. All
nodes show what the owners do then. -/
theorem can_settle [Finite ι] (huid : Function.Injective uid) (hstart : start.Start)
    (hrun : Run owner uid start sys) : ∃ sys', Relation.ReflTransGen (System.Carry uid) sys sys' ∧
      sys'.Quiet ∧ ∀ name node, sys'.view name node = sys.view name (owner name).1 := by
  have := Fintype.ofFinite ι
  have hs := standing_run (standing_start uid hstart) hrun
  obtain ⟨sys₁, hflush, hempty₁⟩ := flush_all (unsent_finite hstart hrun).toFinset hs
    fun t ht => by_contra fun hne => ht ((Set.Finite.mem_toFinset _).mpr hne)
  have hs₁ := standing_passes hs hflush
  obtain ⟨sys₂, hup, hempty₂, hdrained₂, -⟩ := drain_all .up (fun _ _ heq => Link.up.inj heq)
    (fun _ _ htouch => nomatch htouch.2) Finset.univ hs₁ hempty₁
  obtain ⟨sys₃, hdown, hempty₃, hdrained₃, hsame⟩ := drain_all .down
    (fun _ _ heq => Link.down.inj heq) (fun _ _ htouch => nomatch htouch.1) Finset.univ
    (standing_passes hs₁ hup) hempty₂
  have hpasses : Passes uid sys sys₃ := hflush.trans (hup.trans hdown)
  have hdrained : ∀ link, Drained sys₃ link := by
    intro link
    cases link with
    | up i => exact (hdrained₂ i (Finset.mem_univ i)).same (hsame _ fun j _ => ⟨by nofun, by nofun⟩)
    | down i => exact hdrained₃ i (Finset.mem_univ i)
  have hquiet : sys₃.Quiet := ⟨fun link => (hdrained link).1, fun link => (hdrained link).2, hempty₃⟩
  refine ⟨sys₃, hpasses, hquiet, fun name node => ?_⟩
  have howner := owner_view_passes huid hstart hrun hpasses name
  obtain ⟨ids, hs₃, hnone | ⟨trace, t, id, course, -, h⟩⟩ :=
    tracks_of_run huid hstart (hrun.trans hpasses.run) name
  · rw [← howner, hs₃.view_none hnone, hs₃.view_none hnone]
  · rw [h.settled hquiet node, howner]

theorem can_settle_flag : ∃ sys', Relation.ReflTransGen (System.Carry flagUid) flagSent sys' ∧
    sys'.Quiet ∧ ∀ name node, sys'.view name node = flagSent.view name (flagOwner name).1 :=
  can_settle (fun _ _ _ => rfl) start_flag run_sent

end SparxRobot.NetworkTables

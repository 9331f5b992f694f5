/-
# The law of deliveries

Whatever is asked of a notifier, and however its listeners behave, topologies only ascend, and every
transition begins where the one before it ended.  A snapshot that is not newer leaves no trace.  What
listeners write down is what the transitions that were made account for: those who were registered when
a transition was made are told before it applies and waited for, and are told again after it has
applied, and nobody else is.

A listener is registered when it was added and not removed since.
-/

import Custody.Proofs.Notifier.Rounds
import Custody.Proofs.Snapshot

namespace Custody

namespace NotifierRequest

variable {World : Type} {requests : List (NotifierRequest World)} {id : ListenerId}

/-- Whether a request adds a listener. -/
def isAdd : NotifierRequest World → Bool
  | add => true
  | _ => false

/-- Whether a request asks for a snapshot to be installed. -/
def isInstall : NotifierRequest World → Bool
  | install _ | installRing _ => true
  | add | remove _ | stir _ => false

/-- The number of listeners that were added. -/
def adds (requests : List (NotifierRequest World)) : Nat := requests.countP isAdd

/-- A listener was added, under a number that counts the listeners up to it, and not removed since. -/
def Registered (requests : List (NotifierRequest World)) (id : ListenerId) : Prop :=
  ∃ before after, requests = before ++ .add :: after ∧ id = adds before + 1 ∧ .remove id ∉ after

theorem adds_concat (requests : List (NotifierRequest World)) (request : NotifierRequest World) :
    adds (requests ++ [request]) = adds requests + if request.isAdd then 1 else 0 := by
  simp [adds, List.countP_append, List.countP_singleton]

theorem not_registered_nil : ¬ Registered ([] : List (NotifierRequest World)) id := by
  rintro ⟨before, after, hsplit, -⟩
  cases before <;> cases hsplit

/-- The latest request adds a listener, or leaves those registered that it does not remove. -/
theorem registered_concat {request : NotifierRequest World} :
    Registered (requests ++ [request]) id ↔
      (request = .add ∧ id = adds requests + 1) ∨ (Registered requests id ∧ request ≠ .remove id) := by
  constructor
  · rintro ⟨before, after, hsplit, hid, hkept⟩
    rcases List.eq_nil_or_concat after with rfl | ⟨rest, last, rfl⟩
    · obtain ⟨rfl, hlast⟩ := List.append_inj' hsplit rfl
      exact Or.inl ⟨List.singleton_inj.mp hlast, hid⟩
    · rw [List.concat_eq_append] at hsplit hkept
      rw [← List.cons_append, ← List.append_assoc] at hsplit
      obtain ⟨rfl, hlast⟩ := List.append_inj' hsplit rfl
      obtain rfl := List.singleton_inj.mp hlast
      refine Or.inr ⟨⟨before, rest, rfl, hid, fun hmem => hkept (List.mem_append_left _ hmem)⟩, ?_⟩
      rintro rfl
      exact hkept (List.mem_append_right _ List.mem_cons_self)
  · rintro (⟨rfl, hid⟩ | ⟨⟨before, after, rfl, hid, hkept⟩, hother⟩)
    · exact ⟨requests, [], rfl, hid, List.not_mem_nil⟩
    · refine ⟨before, after ++ [request], by simp, hid, fun hmem => ?_⟩
      rcases List.mem_append.mp hmem with hbefore | hnow
      · exact hkept hbefore
      · exact hother (List.mem_singleton.mp hnow).symm

end NotifierRequest

namespace Snapshot

/-- A checked snapshot has a segment. -/
theorem Checked.hasSegment {snapshot : Snapshot} (hchecked : snapshot.Checked) :
    0 < snapshot.segmentCount := List.length_pos_iff.mpr hchecked.valid.hasSegment

end Snapshot

namespace Course

open NotifierRequest

variable {World Reply : Type} {conduct : Conduct World Reply} {start : Course World}
  {requests : List (NotifierRequest World)} {course : Course (Diary World)}

/-- After one more request there are the transitions so far and the one that it brings about. -/
theorem transitions_concat (conduct : Conduct World Reply) (start : Course World)
    (requests : List (NotifierRequest World)) (request : NotifierRequest World) :
    start.transitions conduct (requests ++ [request]) =
      start.transitions conduct requests ++
        ((start.run conduct requests).madeBy conduct request).toList := by
  induction requests generalizing start with
  | nil => simp [transitions, run]
  | cons first rest ih =>
      rw [List.cons_append, transitions, ih, transitions, List.append_assoc]
      rfl

/-- Who is registered with a notifier after some requests. -/
structure Enrolled (requests : List (NotifierRequest World)) (notifier : Notifier) : Prop where
  registered : ∀ id, id ∈ notifier.listeners ↔ Registered requests id
  numbered : notifier.nextListener = adds requests + 1
  past : ∀ id ∈ notifier.listeners, id < notifier.nextListener
  distinct : notifier.listeners.Nodup

namespace Enrolled

variable {notifier : Notifier}

theorem add (henrolled : Enrolled requests notifier) :
    Enrolled (requests ++ [.add]) notifier.addListener.2 where
  registered id := by
    rw [registered_concat, ← henrolled.registered, ← henrolled.numbered]
    simp [Notifier.addListener, or_comm]
  numbered := by simp [adds_concat, isAdd, Notifier.addListener, henrolled.numbered]
  past id hmem := by
    rcases List.mem_append.mp hmem with hbefore | hnow
    · exact Nat.lt_succ_of_lt (henrolled.past id hbefore)
    · rw [List.mem_singleton.mp hnow]
      exact Nat.lt_succ_self _
  distinct := Notifier.nodup_addListener henrolled.distinct fun hmem =>
    Nat.lt_irrefl _ (henrolled.past _ hmem)

theorem remove (henrolled : Enrolled requests notifier) (id : ListenerId) :
    Enrolled (requests ++ [.remove id]) (notifier.removeListener id).2 where
  registered other := by
    rw [registered_concat, ← henrolled.registered]
    constructor
    · intro hmem
      obtain ⟨hthere, hother⟩ := List.mem_filter.mp hmem
      refine Or.inr ⟨hthere, fun hsame => of_decide_eq_true hother ?_⟩
      exact (NotifierRequest.remove.inj hsame).symm
    · rintro (⟨hadds, -⟩ | ⟨hthere, hother⟩)
      · cases hadds
      · refine List.mem_filter.mpr ⟨hthere, decide_eq_true fun hsame => hother ?_⟩
        rw [hsame]
  numbered := by simp [adds_concat, isAdd, Notifier.removeListener, henrolled.numbered]
  past other hmem := henrolled.past other (List.mem_of_mem_filter hmem)
  distinct := henrolled.distinct.filter _

/-- A request that neither adds nor removes a listener leaves those registered that were. -/
theorem other (henrolled : Enrolled requests notifier) {request : NotifierRequest World}
    (hadd : request.isAdd = false) (hremove : ∀ id, request ≠ .remove id) :
    Enrolled (requests ++ [request]) notifier where
  registered id := by
    rw [registered_concat, henrolled.registered]
    constructor
    · exact fun hbefore => Or.inr ⟨hbefore, hremove id⟩
    · rintro (⟨rfl, -⟩ | ⟨hbefore, -⟩)
      · cases hadd
      · exact hbefore
  numbered := by simp [adds_concat, hadd, henrolled.numbered]
  past := henrolled.past
  distinct := henrolled.distinct

/-- It does not matter which snapshot is in effect. -/
theorem effect (henrolled : Enrolled requests notifier) (current : Snapshot) :
    Enrolled requests { notifier with current := current } := { henrolled with }

end Enrolled

/-- What is true of a notifier whose listeners keep a diary, after some requests. -/
structure Steady (conduct : Conduct World Reply) (start : Course World)
    (requests : List (NotifierRequest World)) (course : Course (Diary World)) : Prop where
  plain : course.plain = start.run conduct requests
  localNode : course.notifier.localNode = start.notifier.localNode
  enrolled : Enrolled requests course.notifier
  hasSegment : 0 < course.current.segmentCount
  leads : Transition.Leads start.current (start.transitions conduct requests) course.current
  audiences : ∀ transition ∈ start.transitions conduct requests, transition.audience.Nodup
  told : ∀ transition ∈ start.transitions conduct requests, ∃ earlier request later,
    requests = earlier ++ request :: later ∧
      (start.run conduct earlier).madeBy conduct request = some transition ∧
      transition.localNode = start.notifier.localNode ∧
      ∀ id, id ∈ transition.audience ↔ Registered earlier id
  diary : course.entries = (start.transitions conduct requests).flatMap Transition.rounds

theorem steady_new (conduct : Conduct World Reply) (localNode : NodeId) {initial : Snapshot}
    (hinitial : 0 < initial.segmentCount) (world : World) :
    Steady conduct (new localNode initial world) [] (new localNode initial world).keeping where
  plain := rfl
  localNode := rfl
  enrolled :=
    { registered := fun _ => ⟨nofun, fun hregistered => absurd hregistered not_registered_nil⟩
      numbered := rfl
      past := nofun
      distinct := List.nodup_nil }
  hasSegment := hinitial
  leads := rfl
  audiences _ hmem := nomatch hmem
  told _ hmem := nomatch hmem
  diary := rfl

namespace Steady

/-- What was told of earlier transitions stays told. -/
theorem told_concat (hsteady : Steady conduct start requests course) (last : NotifierRequest World)
    {transition : Transition} (hmem : transition ∈ start.transitions conduct requests) :
    ∃ earlier request later, requests ++ [last] = earlier ++ request :: later ∧
      (start.run conduct earlier).madeBy conduct request = some transition ∧
      transition.localNode = start.notifier.localNode ∧
      ∀ id, id ∈ transition.audience ↔ Registered earlier id := by
  obtain ⟨earlier, request, later, rfl, hrest⟩ := hsteady.told transition hmem
  exact ⟨earlier, request, later ++ [last], by simp, hrest⟩

/-- The course without the diary goes on as it does with it. -/
theorem plain_concat (hsteady : Steady conduct start requests course)
    (request : NotifierRequest World) :
    (course.step conduct.keeping request.keeping).plain =
      start.run conduct (requests ++ [request]) := by
  rw [plain_step, hsteady.plain, run, run, List.foldl_append]
  rfl

/-- A request that brings no transition about leaves the transitions as they are. -/
theorem transitions_of_none (hsteady : Steady conduct start requests course)
    {request : NotifierRequest World} (hnone : course.plain.madeBy conduct request = none) :
    start.transitions conduct (requests ++ [request]) = start.transitions conduct requests := by
  rw [transitions_concat, ← hsteady.plain, hnone]
  exact List.append_nil _

/-- A request that makes no transition and tells nobody anything keeps a notifier steady, if those are
registered afterwards who should be. -/
theorem of_none (hsteady : Steady conduct start requests course) {request : NotifierRequest World}
    (hnone : course.plain.madeBy conduct request = none)
    (hcurrent : (course.step conduct.keeping request.keeping).current = course.current)
    (hentries : (course.step conduct.keeping request.keeping).entries = course.entries)
    (hlocal : (course.step conduct.keeping request.keeping).notifier.localNode =
      course.notifier.localNode)
    (henrolled : Enrolled (requests ++ [request])
      (course.step conduct.keeping request.keeping).notifier) :
    Steady conduct start (requests ++ [request])
      (course.step conduct.keeping request.keeping) := by
  have hsame := hsteady.transitions_of_none hnone
  exact
    { plain := hsteady.plain_concat request
      localNode := hlocal.trans hsteady.localNode
      enrolled := henrolled
      hasSegment := hcurrent ▸ hsteady.hasSegment
      leads := by rw [hsame, hcurrent]; exact hsteady.leads
      audiences := by rw [hsame]; exact hsteady.audiences
      told := by rw [hsame]; exact fun _ => hsteady.told_concat request
      diary := by rw [hsame, hentries]; exact hsteady.diary }

/-- A request that makes a transition keeps a notifier steady. -/
theorem of_some (hsteady : Steady conduct start requests course) {request : NotifierRequest World}
    {next : Snapshot} (hnewer : course.current.topology < next.topology)
    (hsegment : 0 < next.segmentCount)
    (hmade : course.plain.madeBy conduct request = some (course.notifier.transitionTo next))
    (hnotifier : (course.step conduct.keeping request.keeping).notifier =
      { course.notifier with current := next })
    (hentries : (course.step conduct.keeping request.keeping).entries =
      course.entries ++ (course.notifier.transitionTo next).rounds)
    (henrolled : Enrolled (requests ++ [request]) course.notifier) :
    Steady conduct start (requests ++ [request])
      (course.step conduct.keeping request.keeping) := by
  have hall : start.transitions conduct (requests ++ [request]) =
      start.transitions conduct requests ++ [course.notifier.transitionTo next] := by
    rw [transitions_concat, ← hsteady.plain, hmade]
    rfl
  have hcurrent : (course.step conduct.keeping request.keeping).current = next :=
    congrArg Notifier.current hnotifier
  exact
    { plain := hsteady.plain_concat request
      localNode := (congrArg Notifier.localNode hnotifier).trans hsteady.localNode
      enrolled := hnotifier ▸ henrolled.effect next
      hasSegment := hcurrent ▸ hsegment
      leads := by
        rw [hall, hcurrent]
        exact hsteady.leads.concat rfl hnewer
      audiences := by
        rw [hall]
        intro transition hmem
        rcases List.mem_append.mp hmem with hbefore | hnow
        · exact hsteady.audiences transition hbefore
        · rw [List.mem_singleton.mp hnow]
          exact hsteady.enrolled.distinct
      told := by
        rw [hall]
        intro transition hmem
        rcases List.mem_append.mp hmem with hbefore | hnow
        · exact hsteady.told_concat request hbefore
        · rw [List.mem_singleton.mp hnow]
          refine ⟨requests, request, [], rfl, ?_, hsteady.localNode, hsteady.enrolled.registered⟩
          rw [← hsteady.plain, hmade]
      diary := by
        rw [hall, hentries, List.flatMap_append, ← hsteady.diary]
        exact congrArg (course.entries ++ ·) (List.flatMap_singleton _ _).symm }

/-- A request by which a snapshot is proposed keeps a notifier steady, whether it is installed or
refused. -/
theorem install (hsteady : Steady conduct start requests course) {request : NotifierRequest World}
    {next : Snapshot} (hsegment : 0 < next.segmentCount)
    (hadd : request.isAdd = false) (hremove : ∀ id, request ≠ .remove id)
    (hstep : course.step conduct.keeping request.keeping =
      (course.install conduct.keeping next).2)
    (hmade : course.plain.madeBy conduct request =
      madeBy.told course.plain (course.plain.install conduct next).1 next) :
    Steady conduct start (requests ++ [request])
      (course.step conduct.keeping request.keeping) := by
  have henrolled := hsteady.enrolled.other hadd hremove
  by_cases hstale : next.topology ≤ course.current.topology
  · rw [install_of_stale conduct course.plain hstale] at hmade
    rw [install_of_stale conduct.keeping course hstale] at hstep
    refine hsteady.of_none hmade ?_ ?_ ?_ ?_ <;> rw [hstep]
    exact henrolled
  · -- What was made is told from the answer to those who keep no diary, which is the same answer.
    have hnewer := UInt64.not_le.mp hstale
    obtain ⟨answers, world, hinstalled, -⟩ := install_of_newer conduct course hnewer
    rw [plain_install, hinstalled] at hmade
    rw [hinstalled] at hstep
    refine hsteady.of_some hnewer hsegment hmade ?_ ?_ henrolled <;> rw [hstep]
    rfl

theorem step (hsteady : Steady conduct start requests course) (request : NotifierRequest World)
    (hchecked : ∀ next, request = .install next → next.Checked) :
    Steady conduct start (requests ++ [request])
      (course.step conduct.keeping request.keeping) := by
  cases request with
  | add => exact hsteady.of_none rfl rfl rfl rfl hsteady.enrolled.add
  | remove id => exact hsteady.of_none rfl rfl rfl rfl (hsteady.enrolled.remove id)
  | install next =>
      exact hsteady.install (hchecked next rfl).hasSegment rfl (fun _ => nofun) rfl rfl
  | installRing ring =>
      have hsegment : 0 < (course.notifier.nextOfRing ring).segmentCount := by
        rw [Notifier.nextOfRing, Ring.segmentCount_snapshot]
        exact Nat.le_max_right _ 1
      exact hsteady.install hsegment rfl (fun _ => nofun) rfl rfl
  | stir change =>
      exact hsteady.of_none rfl rfl rfl rfl (hsteady.enrolled.other rfl fun _ => nofun)

theorem run (hsteady : Steady conduct start requests course) (later : List (NotifierRequest World))
    (hchecked : ∀ next, .install next ∈ later → next.Checked) :
    Steady conduct start (requests ++ later)
      (course.run conduct.keeping (later.map (·.keeping))) := by
  induction later generalizing requests course with
  | nil => exact (List.append_nil requests).symm ▸ hsteady
  | cons request rest ih =>
      have hstep : Steady conduct start (requests ++ [request])
          (course.step conduct.keeping request.keeping) :=
        hsteady.step request fun next hnext => hchecked next (hnext ▸ List.mem_cons_self)
      have hrest := ih hstep fun next hmem => hchecked next (List.mem_cons_of_mem request hmem)
      rwa [List.append_assoc] at hrest

end Steady

/-- What is true of a notifier after some requests, and of the next thing that is asked of it, when its
listeners have kept a diary since the start. -/
structure Lawful (conduct : Conduct World Reply) (start : Course World)
    (requests : List (NotifierRequest World)) (course : Course (Diary World)) : Prop where
  /-- The diary makes no difference. -/
  plain : course.plain = start.run conduct requests
  /-- Those are registered who were added and not removed since. -/
  registered : ∀ id, id ∈ course.notifier.listeners ↔ Registered requests id
  /-- A snapshot that is not newer is refused.  Nobody is told anything and nothing changes. -/
  refused : ∀ next, next.topology ≤ course.current.topology →
    course.install conduct.keeping next =
        (.error (.staleTopology course.current.topology next.topology), course) ∧
      course.plain.install conduct next =
        (.error (.staleTopology course.current.topology next.topology), course.plain)
  /-- Any other snapshot is installed.  Those who are registered are told of it in two rounds, and are
  waited for in the first.  What each hands out in the second is returned, in their order. -/
  installed : ∀ next, course.current.topology < next.topology → ∃ answers after,
    course.install conduct.keeping next = (.ok answers, after) ∧
      course.plain.install conduct next = (.ok (answers.map (·.reply)), after.plain) ∧
      after.notifier = { course.notifier with current := next } ∧
      after.entries = course.entries ++ (course.notifier.transitionTo next).rounds ∧
      answers.map (fun answer => (answer.listener, answer.event)) =
        course.notifier.listeners.map (·, (course.notifier.transitionTo next).event .post)
  /-- A ring is always installed, as the next topology over as many segments, as long as there is a
  next topology. -/
  ring : ∀ ring, course.current.topology.toNat + 1 < UInt64.size → ∃ answers after,
    course.installRing conduct.keeping ring = (.ok answers, after) ∧
      course.plain.installRing conduct ring = (.ok (answers.map (·.reply)), after.plain) ∧
      after.current.topology.toNat = course.current.topology.toNat + 1 ∧
      after.current.segmentCount = course.current.segmentCount ∧
      after.entries = course.entries ++ (course.notifier.transitionTo after.current).rounds
  /-- Nothing else that is asked makes a transition or tells anybody anything. -/
  quiet : ∀ request : NotifierRequest World, request.isInstall = false →
    (course.step conduct.keeping request.keeping).current = course.current ∧
      (course.step conduct.keeping request.keeping).entries = course.entries ∧
      course.plain.madeBy conduct request = none
  /-- Every transition begins where the one before it ended, the first at the start, and leads to a
  newer topology; the last leads to what is in effect. -/
  leads : Transition.Leads start.current (start.transitions conduct requests) course.current
  /-- Topologies ascend. -/
  ascending : (start.current.topology ::
    (start.transitions conduct requests).map (·.new.topology)).Pairwise (· < ·)
  /-- Those are told of a transition who were registered when it was asked for. -/
  told : ∀ transition ∈ start.transitions conduct requests, ∃ earlier request later,
    requests = earlier ++ request :: later ∧
      (start.run conduct earlier).madeBy conduct request = some transition ∧
      transition.localNode = start.notifier.localNode ∧
      ∀ id, id ∈ transition.audience ↔ Registered earlier id
  /-- What listeners hear and what is waited for is what the transitions account for, in their
  order. -/
  diary : course.entries = (start.transitions conduct requests).flatMap Transition.rounds
  /-- Every listener is told of a transition while the old snapshot is in effect, its answer comes
  while the old snapshot is in effect, and it is told again when the new one is; so for every
  transition of which it is told, and for no other. -/
  part : ∀ id, course.entries.filter (·.listener = id) =
    ((start.transitions conduct requests).filter (id ∈ ·.audience)).flatMap (·.part id)

/-- What one listener goes through, given what occurs to all. -/
theorem Steady.part (hsteady : Steady conduct start requests course) (id : ListenerId) :
    course.entries.filter (·.listener = id) =
      ((start.transitions conduct requests).filter (id ∈ ·.audience)).flatMap (·.part id) := by
  have hrounds := hsteady.audiences
  rw [hsteady.diary]
  generalize start.transitions conduct requests = made at hrounds
  induction made with
  | nil => rfl
  | cons transition rest ih =>
      have hdistinct := hrounds transition List.mem_cons_self
      have hlater := ih fun other hmem => hrounds other (List.mem_cons_of_mem transition hmem)
      rw [List.flatMap_cons, List.filter_append, transition.filter_rounds hdistinct, hlater]
      by_cases hmem : id ∈ transition.audience
      · rw [if_pos hmem, List.filter_cons, if_pos (decide_eq_true hmem), List.flatMap_cons]
      · rw [if_neg hmem, List.filter_cons, if_neg (by simpa using hmem), List.nil_append]

/-- A ring has a newer topology than the one in effect, unless that is the last. -/
theorem newer_nextOfRing (course : Course World) (ring : Ring)
    (hbound : course.current.topology.toNat + 1 < UInt64.size) :
    (course.notifier.nextOfRing ring).topology.toNat = course.current.topology.toNat + 1 :=
  (UInt64.toNat_add _ _).trans (Nat.mod_eq_of_lt hbound)

/-- A steady notifier is lawful. -/
theorem Steady.lawful (hsteady : Steady conduct start requests course) :
    Lawful conduct start requests course where
  plain := hsteady.plain
  registered := hsteady.enrolled.registered
  refused next hstale :=
    ⟨install_of_stale conduct.keeping course hstale, install_of_stale conduct course.plain hstale⟩
  installed next hnewer := by
    obtain ⟨answers, world, hinstalled, hanswers⟩ := install_of_newer conduct course hnewer
    have hplain := plain_install conduct course next
    rw [hinstalled] at hplain
    exact ⟨answers, _, hinstalled, hplain, rfl, rfl, hanswers⟩
  ring ring hbound := by
    have hnext := newer_nextOfRing course ring hbound
    have hnewer : course.current.topology < (course.notifier.nextOfRing ring).topology := by
      rw [UInt64.lt_iff_toNat_lt, hnext]
      exact Nat.lt_succ_self _
    obtain ⟨answers, world, hinstalled, -⟩ := install_of_newer conduct course hnewer
    have hplain := plain_install conduct course (course.notifier.nextOfRing ring)
    rw [hinstalled] at hplain
    refine ⟨answers, _, hinstalled, hplain, hnext, ?_, rfl⟩
    show (course.notifier.nextOfRing ring).segmentCount = course.current.segmentCount
    rw [Notifier.nextOfRing, Ring.segmentCount_snapshot]
    exact Nat.max_eq_left hsteady.hasSegment
  quiet request hrequest := by
    cases request with
    | install next => cases hrequest
    | installRing ring => cases hrequest
    | _ => exact ⟨rfl, rfl, rfl⟩
  leads := hsteady.leads
  ascending := hsteady.leads.ascending
  told := hsteady.told
  diary := hsteady.diary
  part := hsteady.part

/-- The law of deliveries holds of every notifier, whatever is asked of it and however its listeners
behave. -/
theorem lawful_kept (conduct : Conduct World Reply) (localNode : NodeId) {initial : Snapshot}
    (hinitial : initial.Checked) (world : World) (requests : List (NotifierRequest World))
    (hchecked : ∀ next, .install next ∈ requests → next.Checked) :
    Lawful conduct (new localNode initial world) requests
      ((new localNode initial world).kept conduct requests) :=
  ((steady_new conduct localNode hinitial.hasSegment world).run requests hchecked).lawful

end Course

end Custody

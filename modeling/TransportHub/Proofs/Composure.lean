import TransportHub.Proofs.Replies
import TransportHub.Proofs.Workers
/-!
Composure: no worker of a lane is ever ended by a panic, and nobody else is waited for under the name of
the lanes.
-/

set_option autoImplicit false

namespace TransportHub

open DataLanes (Slot)

variable {config : Config} {hooks : List Hook} {past : List Moment} {m : Machine} {t u w : ThreadId}
  {job : Job} {later : List Job} {slot : Slot} {c : ConnectionHandle}

theorem panicked_carry (known : u.val < m.agendas.length) : (m.carry t job later).panicked u = m.panicked u := by
  rw [panicked_eq, panicked_eq]
  by_cases answers : ∃ reply, job = .answer reply
  · obtain ⟨reply, rfl⟩ := answers
    rw [Machine.carry, memos_setAgenda]
    simp only [Job.exec, Machine.changeThread, Machine.memos, Machine.each, List.getElem?_map, List.getElem?_modify]
    cases m.threads[u.val]? with
    | none => rfl
    | some thread => by_cases mine : t.val = u.val <;> simp [mine, Thread.memo]
  · rw [memo_carry known (.inr fun reply same => answers ⟨reply, same⟩)]

theorem panicked_caught (caught : (Machine.caught? later).isSome = true) : (m.unwind t later).panicked u = m.panicked u := by
  obtain ⟨agenda, caught⟩ := Option.isSome_iff_exists.mp caught
  rw [panicked_eq, panicked_eq]
  unfold Machine.unwind
  rw [caught]
  simp only [memos_setAgenda]
  split <;> rfl

theorem caught_some {d : Delivery} (inside : .participant (.delivered d) ∈ later) : (Machine.caught? later).isSome = true := by
  fun_induction cut later with
  | case1 => cases inside
  | case2 => rfl
  | case3 job rest other ih =>
      have behind := (List.mem_cons.mp inside).resolve_left fun same => other d same.symm
      simp only [Machine.caught?]
      exact ih behind

def Composed (m : Machine) (w : ThreadId) : Prop :=
  m.panicked w = false ∧ (Every Job.trails (m.agenda w) ∨ ∃ d, .participant (.delivered d) ∈ m.agenda w)

theorem Composed.carry (composed : Composed m w) (run : Run config hooks past m) (apart : w ≠ .caller)
    (known : w.val < m.agendas.length) (agenda : m.agenda t = job :: later) : Composed (m.carry t job later) w := by
  refine ⟨(panicked_carry known).trans composed.1, ?_⟩
  by_cases mine : w = t
  · subst mine
    have trailing := run.trailing w
    rw [agenda] at trailing
    rw [agenda_carry_self agenda]
    have work := composed.2
    rw [agenda] at work
    rcases work with trails | ⟨d, member⟩
    · obtain ⟨first, behind⟩ := (every_cons ..).mp trails
      cases job with
      | log record =>
          left
          simpa only [Job.exec, Machine.log, if_neg apart, List.nil_append] using behind
      | participant p =>
          cases p with
          | deliver d =>
              cases more : d.listeners[d.called]? with
              | none => exact .inl (by simpa only [Job.exec, ParticipantJob.exec, more, List.nil_append] using behind)
              | some id => exact .inr ⟨{ d with called := d.called + 1 }, by simp [Job.exec, ParticipantJob.exec, more]⟩
          | _ => cases first
      | deviceLane | dataLane =>
          exact .inl ((every_append ..).mpr ⟨trails_next m w _ first (fun _ none => by cases none), behind⟩)
      | _ => cases first
    · rcases List.mem_cons.mp member with same | behind
      · subst same
        exact .inl ((every_append ..).mpr ⟨every_one rfl, trailing.1 rfl⟩)
      · exact .inr ⟨d, List.mem_append_right _ behind⟩
  · rw [agenda_carry_old mine known]
    exact composed.2

theorem Composed.unwind (composed : Composed m w) (run : Run config hooks past m) (agenda : m.agenda t = .panic :: later) :
    Composed (m.unwind t later) w := by
  by_cases mine : w = t
  · subst mine
    have work := composed.2
    rw [agenda] at work
    rcases work with trails | ⟨d, member⟩
    · cases ((every_cons ..).mp trails).1
    · have behind := (List.mem_cons.mp member).resolve_left fun none => by cases none
      refine ⟨(panicked_caught (caught_some behind)).trans composed.1, .inl ?_⟩
      rw [agenda_unwind_self agenda]
      exact run.trails_kept agenda
  · refine ⟨?_, by rw [agenda_unwind_other mine]; exact composed.2⟩
    rw [panicked_eq, memo_unwind mine, ← panicked_eq]
    exact composed.1

theorem composed_opened (agenda : m.agenda t = job :: later)
    (opens : Moment.opens ⟨m, t, job, later⟩ = some slot) : Composed (m.carry t job later) slot.worker := by
  obtain ⟨_, c, work⟩ := agenda_carry_opened agenda opens
  refine ⟨?_, .inl (work ▸ (every_cons ..).mpr ⟨rfl, every_one rfl⟩)⟩
  obtain ⟨c, rfl, _, rfl⟩ := opens_started opens
  obtain ⟨threads, more⟩ := more_exec m t (.dataLane (.spawn c)) fun _ none => by cases none
  rw [panicked_eq, Machine.carry, memos_setAgenda, more, List.getElem?_append_right (Nat.le_of_eq (length_memos m))]
  cases new : (List.replicate threads (Reply.unit, false))[m.agendas.length - m.memos.length]? with
  | none => rfl
  | some memo => rw [(List.mem_replicate.mp (List.mem_of_getElem? new)).2]; rfl

theorem Run.composed (run : Run config hooks past m) : ∀ slot ∈ roster past, Composed m slot.worker := by
  refine Run.induct (G := fun _ => True) (P := fun past m => ∀ slot ∈ roster past, Composed m slot.worker)
    ?construct ?assemble ?call ?client ?carry ?unwind run fun _ _ => trivial
  case construct | assemble => exact fun _ none => by cases none
  case call =>
    intro past m op run before _ slot member
    have apart := run.rostered.apart member
    refine ⟨?_, by rw [agenda_beginWith_other apart]; exact (before slot member).2⟩
    rw [panicked_eq, Machine.beginWith, memos_other _ _ _ apart, ← panicked_eq]
    exact (before slot member).1
  case client =>
    intro past m name op run before slot member
    have known := (run.rostered.known slot member).2.2
    refine ⟨?_, by rw [agenda_client_old known]; exact (before slot member).2⟩
    rw [panicked_eq, memos_spawn, List.getElem?_append_left (by rwa [length_memos]), ← panicked_eq]
    exact (before slot member).1
  case carry =>
    intro past m t job later run before agenda _ _ _ slot member
    rcases mem_roster_snoc.mp member with old | opens
    · exact (before slot old).carry run (run.rostered.apart old) (run.rostered.known slot old).2.2 agenda
    · exact composed_opened agenda opens
  case unwind =>
    intro past m t later run before agenda _ slot member
    exact (before slot ((mem_roster_snoc.mp member).resolve_right fun none => by cases none)).unwind run agenda

def Job.musters (past : List Moment) : Job → Prop
  | .dataLane (.retire w) => ∃ slot ∈ roster past, slot.worker = w
  | .join lane w => lane = Log.dataLaneName → ∃ slot ∈ roster past, slot.worker = w
  | _ => True

def Mustered (past : List Moment) (h : Hub) : Prop := ∀ w ∈ h.dataLanes.retired, ∃ slot ∈ roster past, slot.worker = w

theorem roster_more {x : Moment} (here : ∃ slot ∈ roster past, slot.worker = w) : ∃ slot ∈ roster (past ++ [x]), slot.worker = w :=
  here.imp fun _ found => ⟨mem_roster_snoc.mpr (.inl found.1), found.2⟩

theorem musters_source {j : Job} (leads : job.leads j = true) (here : ¬ j.musters past) :
    job = .deviceLane .join ∨ job = .dataLane .reap ∨ (∃ join, job = .dataLane (.close join)) ∨
      (∃ c slot, job = .dataLane (.publish c slot)) ∨ ∃ c, job = .dataLane (.stop c) := by
  cases j with
  | join lane w =>
      rcases join_origin leads with joins | publishes | reaps | closes
      · exact .inl joins
      · exact .inr (.inr (.inr (.inl publishes)))
      · exact .inr (.inl reaps)
      · exact .inr (.inr (.inl closes))
  | dataLane j =>
      cases j with
      | retire w => exact .inr (.inr (.inr (retire_origin leads)))
      | _ => exact absurd trivial here
  | _ => exact absurd trivial here

theorem musters_exec (m : Machine) (t : ThreadId) (mustered : Mustered past m.hub)
    (slots : ∀ c slot, m.hub.dataLanes.slots.get? c = some slot → slot ∈ roster past) (enlisted : job.enlisted past t) :
    ∀ j ∈ (job.exec m t).2, j.musters past := by
  intro j member
  by_cases musters : j.musters past
  · exact musters
  · rcases musters_source (leads_exec m t job j member) musters with rfl | rfl | ⟨join, rfl⟩ | ⟨c, slot, rfl⟩ | ⟨c, rfl⟩
    · simp only [Job.exec, DeviceLaneJob.exec, Option.mem_toList, Option.map_eq_some_iff] at member
      obtain ⟨w, _, rfl⟩ := member
      exact fun same => absurd same (by decide)
    · simp only [Job.exec, DataLaneJob.exec, DataLanes.reap, List.mem_map, List.mem_filter] at member
      obtain ⟨w, ⟨retired, _⟩, rfl⟩ := member
      exact fun _ => mustered w retired
    · simp only [Job.exec, DataLaneJob.exec, DataLanes.close] at member
      rcases List.mem_append.mp member with wakes | joins
      · obtain ⟨slot, _, rfl⟩ := List.mem_map.mp wakes
        trivial
      · split at joins
        · obtain ⟨w, worker, rfl⟩ := List.mem_map.mp joins
          rcases List.mem_append.mp worker with retired | live
          · exact fun _ => mustered w retired
          · obtain ⟨slot, inside, rfl⟩ := List.mem_map.mp live
            obtain ⟨⟨c, _⟩, row, rfl⟩ := List.mem_map.mp inside
            exact fun _ => ⟨_, slots c _ ((Table.get?_eq_some_iff ..).mpr row), rfl⟩
        · cases joins
    · have worker : ∃ other ∈ roster past, other.worker = slot.worker := ⟨slot, enlisted, rfl⟩
      simp only [Job.exec, DataLaneJob.exec] at member
      split at member
      · simp only [List.mem_cons, List.not_mem_nil, or_false] at member
        rcases member with rfl | rfl | rfl | rfl | rfl <;> first | trivial | exact fun _ => worker
      · split at member
        · simp only [List.mem_cons, List.not_mem_nil, or_false] at member
          rcases member with rfl | rfl | rfl | rfl | rfl <;> trivial
        · simp only [List.mem_cons, List.not_mem_nil, or_false] at member
          rcases member with rfl | rfl | rfl <;> trivial
    · simp only [Job.exec, DataLaneJob.exec, DataLanes.withdraw] at member
      cases found : m.hub.dataLanes.slots.get? c with
      | none =>
          rw [found] at member
          simp only [List.mem_cons, List.not_mem_nil, or_false] at member
          rcases member with rfl | rfl | rfl <;> trivial
      | some slot =>
          rw [found] at member
          simp only [List.mem_cons, List.not_mem_nil, or_false] at member
          rcases member with rfl | rfl | rfl | rfl | rfl <;> first | trivial | exact ⟨slot, slots c slot found, rfl⟩

theorem retired_source (m : Machine) (t : ThreadId) (job : Job) (here : w ∈ (job.exec m t).1.hub.dataLanes.retired) :
    w ∈ m.hub.dataLanes.retired ∨ job = .dataLane (.retire w) := by
  rcases dataLane_or job with ⟨j, rfl⟩ | apart
  · cases j with
    | reap => exact .inl (List.mem_filter.mp here).1
    | retire worker => exact (List.mem_append.mp here).imp_right fun new => by rw [List.mem_singleton.mp new]
    | close join => cases here
    | stop c =>
        simp only [Job.exec, DataLaneJob.exec, DataLanes.withdraw] at here
        cases found : m.hub.dataLanes.slots.get? c <;> rw [found] at here <;> exact .inl here
    | spawn | publish | push | look =>
        simp only [Job.exec, DataLaneJob.exec, DataLaneJob.lookAtLane] at here
        repeat' split at here
        all_goals exact .inl here
    | _ => exact .inl here
  · rw [(dataLanes_exec m t job apart).2.2.2] at here
    exact .inl here

theorem Job.musters.more {x : Moment} (musters : job.musters past) : job.musters (past ++ [x]) := by
  unfold Job.musters at *
  split at musters
  · exact roster_more musters
  · exact fun same => roster_more (musters same)
  · trivial

theorem Run.mustered (run : Run config hooks past m) :
    Mustered past m.hub ∧ ∀ u, Each (fun job _ => job.musters past) (m.agenda u) := by
  refine Run.sustain (G := fun _ => True) (I := Mustered) (P := fun past _ _ job _ => job.musters past)
    ?start ?fresh ?carry ?panic ?caught run fun _ _ => trivial
  case start => exact fun _ none => by cases none
  case fresh => exact fun _ _ => ⟨⟨trivial, trivial, trivial⟩, ⟨trivial, trivial⟩, fun _ _ => ⟨trivial, trivial⟩⟩
  case carry =>
    intro past m t job later run mustered each agenda _ _ _
    have first := each t
    have enlisted := run.enlisted.2 t
    rw [agenda] at first enlisted
    refine ⟨fun w here => ?_, fun _ _ _ musters => musters.more, ?_, fun u agenda _ started recruit => ?_⟩
    · rcases retired_source m t job here with old | rfl
      · exact roster_more (mustered w old)
      · exact roster_more first.1
    · refine each_of_forall fun j member _ => Job.musters.more ?_
      exact musters_exec m t mustered (fun c slot found => run.enlisted.1.2 slot (run.enlisted.1.1 c slot found)) enlisted.1 j member
    · have fresh : Fresh config u agenda := fresh_recruits started (List.mem_of_getElem? recruit)
      cases fresh <;> first | exact ⟨trivial, trivial, trivial⟩ | exact ⟨trivial, trivial⟩
  case panic =>
    intro past m t later h _ mustered _ _ hub
    have same : h.dataLanes = m.hub.dataLanes := by rcases hub with rfl | rfl <;> rfl
    exact ⟨fun w here => roster_more (mustered w (same ▸ here)), fun _ _ _ musters => musters.more⟩
  case caught => exact fun _ _ _ _ _ each => ⟨trivial, trivial, each.2⟩

end TransportHub

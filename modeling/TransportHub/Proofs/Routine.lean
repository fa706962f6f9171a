import TransportHub.Proofs.Silence
import TransportHub.Proofs.Audience
/-!
Passive listeners: they record what they hear, ignore it, or panic, and perform no operation. The workers
of a hub whose listeners are all passive do nothing but their routine: they look, deliver and write records.
-/

set_option autoImplicit false

namespace TransportHub

open DataLanes (Slot)

variable {config : Config} {hooks : List Hook} {past : List Moment} {m m' : Machine} {t u w : ThreadId}
  {job : Job} {later : List Job}

def ListenerSpec.passive (spec : ListenerSpec Op) : Bool := spec.script.all fun r => r.ops.all fun op => op matches .panic

def Cast.specs (c : Cast) : List (ListenerSpec Op) := c.listeners.map (·.spec)

def Cast.passive (c : Cast) : Prop := ∀ spec ∈ c.specs, spec.passive = true

instance (c : Cast) : Decidable c.passive := inferInstanceAs (Decidable (∀ spec ∈ c.specs, spec.passive = true))

theorem specs_setListener (c : Cast) (id : ListenerId) {l l' : Listener} (known : c.listener? id = some l) (same : l'.spec = l.spec) :
    (c.setListener id l').specs = c.specs := by
  obtain ⟨within, here⟩ := List.getElem?_eq_some_iff.mp known
  simp only [Cast.specs, Cast.setListener, List.map_set, same]
  refine List.ext_getElem? fun i => ?_
  by_cases at_ : id.val = i
  · subst at_
    simp [within, here]
  · simp [List.getElem?_set_ne at_]

theorem specs_resolveAdapter (c : Cast) (ref : Ref (AdapterSpec Op)) : (c.resolveAdapter ref).2.specs = c.specs := by
  unfold Cast.resolveAdapter
  repeat' split
  all_goals rfl

theorem specs_enterListener (c : Cast) (spec : ListenerSpec Op) : c.specs <+: (c.enterListener spec).2.specs := by
  simp [Cast.enterListener, Cast.specs]

theorem specs_resolveListener (c : Cast) (names : List (String × ListenerId)) (ref : Ref (ListenerSpec Op)) :
    c.specs <+: (c.resolveListener names ref).2.2.specs := by
  cases ref with
  | fresh spec => exact specs_enterListener c spec
  | named name =>
      simp only [Cast.resolveListener]
      split
      · exact List.prefix_rfl
      · exact specs_enterListener c { name }

inductive Recast (c : Cast) : Job → Cast → Prop where
  | same (job : Job) : Recast c job c
  | adapter (op : Op) (ref : Ref (AdapterSpec Op)) : Recast c (.perform op) (c.resolveAdapter ref).2
  | device (op : Op) (ref : Ref (ListenerSpec Op)) : Recast c (.perform op) (c.resolveDeviceListener ref).2
  | data (op : Op) (ref : Ref (ListenerSpec Op)) : Recast c (.perform op) (c.resolveDataListener ref).2
  | retype {name : String} {key : AdapterKey} {a : Adapter} (deviceType : String) (named : c.namedAdapter? name = some (key, a)) :
      Recast c (.perform (.setType name deviceType)) (c.setAdapter key { a with deviceType })
  | call {id : AdapterId} {key : AdapterKey} {call : AdapterCall} {a a' : Adapter} (known : c.adapter? key = some a)
      (spec : a'.spec = a.spec) (deviceType : a'.deviceType = a.deviceType) :
      Recast c (.participant (.call id key call)) (c.setAdapter key a')
  | hear {id : ListenerId} {callback : Callback} {l l' : Listener} (known : c.listener? id = some l) (spec : l'.spec = l.spec) :
      Recast c (.participant (.hear id callback)) (c.setListener id l')

theorem cast_spawnReporters (m : Machine) (device : DeviceInfo) (c : ConnectionHandle) (threads : Nat) :
    (m.spawnReporters device c threads).2.cast = m.cast := by
  induction threads generalizing m with
  | zero => rfl
  | succ threads ih => exact ih _

theorem recast_perform (m : Machine) (op : Op) : Recast m.cast (.perform op) (m.perform op).1.cast := by
  cases op with
  | addAdapter ref | register ref =>
      simp only [Machine.perform]
      split
      · exact .adapter _ ref
      · exact .same _
  | addDeviceListener ref | removeDeviceListener ref =>
      simp only [Machine.perform]
      split
      · exact .device _ ref
      · exact .same _
  | addDataListener ref | removeDataListener ref =>
      simp only [Machine.perform]
      split
      · exact .data _ ref
      · exact .same _
  | setType name deviceType =>
      simp only [Machine.perform]
      split
      · exact .retype deviceType ‹_›
      · exact .same _
  | connectAtOnce threads device c =>
      simp only [Machine.perform, Machine.performOwned]
      split
      · rw [cast_spawnReporters]
        exact .same _
      · exact .same _
  | context name query =>
      simp only [Machine.perform]
      split
      · cases query <;> exact .same _
      · exact .same _
  | registry op | deviceLane op | dataLanes op =>
      cases op <;> simp only [Machine.perform, Machine.performOwned, RegistryOp.exec, DeviceLaneOp.exec, DataLanesOp.exec] <;>
        (repeat' split) <;> exact .same _
  | _ =>
      simp only [Machine.perform, Machine.performOwned]
      repeat' split
      all_goals exact .same _

theorem recast_participant (m : Machine) (t : ThreadId) (job : ParticipantJob) :
    Recast m.cast (.participant job) (job.exec m t).1.cast := by
  cases job with
  | call id key call =>
      simp only [ParticipantJob.exec, ParticipantJob.callAdapter]
      split
      · rename_i known
        split
        · exact .same _
        · refine .call known ?_ ?_
          all_goals cases call <;> rfl
      · exact .same _
  | hear id callback =>
      simp only [ParticipantJob.exec, ParticipantJob.callListener]
      split
      · rename_i known
        split
        · exact .same _
        · exact .hear known rfl
      · exact .same _
  | deliver d =>
      simp only [ParticipantJob.exec]
      split <;> exact .same _
  | _ => exact .same _

theorem recast_exec (m : Machine) (t : ThreadId) (job : Job) : Recast m.cast job (job.exec m t).1.cast := by
  cases job with
  | perform op => exact recast_perform m op
  | participant job => exact recast_participant m t job
  | registry job =>
      cases job <;> simp only [Job.exec, RegistryJob.exec] <;> (repeat' split) <;> exact .same _
  | deviceLane job =>
      cases job <;> simp only [Job.exec, DeviceLaneJob.exec, DeviceLaneJob.lookAtQueue] <;> (repeat' split) <;> exact .same _
  | dataLane job =>
      cases job <;> simp only [Job.exec, DataLaneJob.exec, DataLaneJob.lookAtLane] <;> (repeat' split) <;> exact .same _
  | hub job =>
      cases job <;> simp only [Job.exec, HubJob.exec] <;> (repeat' split) <;> exact .same _
  | log record =>
      simp only [Job.exec, Machine.log]
      split <;> exact .same _
  | hold =>
      simp only [Job.exec]
      split <;> exact .same _
  | _ => exact .same _

theorem Recast.specs {c c' : Cast} (recast : Recast c job c') : c.specs <+: c'.specs := by
  cases recast with
  | same | retype | call => exact List.prefix_rfl
  | adapter op ref => exact (specs_resolveAdapter c ref) ▸ List.prefix_rfl
  | device op ref => exact specs_resolveListener c c.deviceListenerNames ref
  | data op ref => exact specs_resolveListener c c.dataListenerNames ref
  | hear known spec => exact (specs_setListener c _ known spec) ▸ List.prefix_rfl

theorem specs_exec (m : Machine) (t : ThreadId) (job : Job) : m.cast.specs <+: (job.exec m t).1.cast.specs :=
  (recast_exec m t job).specs

theorem cast_unwind : (m.unwind t later).cast = m.cast := by
  unfold Machine.unwind
  split <;> (dsimp only; split) <;> rfl

def Job.routine : Job → Bool
  | .log _ | .panic => true
  | .deviceLane job => (job matches .look)
  | .dataLane job => (job matches .look _ | .snapshot .. | .handOver .. | .mismatch)
  | .participant job => (job matches .hear .. | .deliver _ | .delivered _)
  | _ => false

def Job.laments : Job → Bool
  | .log (.lane _ (.panicked ..)) => true
  | _ => false

structure Job.Routine (job : Job) (rest : List Job) : Prop where
  kind : job.routine = true
  panic : job = .panic → rest.head? = some .panic ∨ ∃ d, rest.head? = some (.participant (.delivered d))
  hear : job.hears = true → ∃ d, rest.head? = some (.participant (.delivered d))
  record : job.laments = true → ∃ d, rest.head? = some (.participant (.deliver d))

def Job.eventful : Job → Bool
  | .panic => true
  | job => job.hears || job.laments

theorem routine_even (routine : job.routine = true) (even : job.eventful = false) (rest : List Job) : job.Routine rest where
  kind := routine
  panic same := by rw [same] at even; cases even
  hear hears := by
    cases job with
    | participant job => cases job <;> first | (cases hears; done) | cases even
    | _ => cases hears
  record laments := by
    cases job with
    | log record =>
        have calm : (Job.log record).laments = false := even
        rw [calm] at laments
        cases laments
    | _ => cases laments

def Job.bruises : Job → Nat
  | .participant (.deliver d) | .participant (.delivered d) => d.panics
  | _ => 0

structure Job.Even (job : Job) : Prop where
  routine : job.routine = true
  quiet : job.eventful = false
  unhurt : job.bruises = 0

theorem each_even {agenda : List Job} (all : ∀ job ∈ agenda, job.Even) (rest : List Job) :
    Each (fun job more => job.Routine (more ++ rest)) agenda :=
  each_of_forall fun job member _ => routine_even (all job member).routine (all job member).quiet _

theorem passive_nested {spec : ListenerSpec Op} (passive : spec.passive = true) (event : Event) (earlier : Nat) :
    ∀ job ∈ (Rule.opsFor spec.script event earlier).flatMap Job.nested, job = .panic := by
  intro job member
  obtain ⟨op, inside, nested⟩ := List.mem_flatMap.mp member
  obtain ⟨r, rule, here⟩ := List.mem_flatMap.mp inside
  have panics := List.all_eq_true.mp (List.all_eq_true.mp passive r (List.mem_filter.mp rule).1) op here
  cases op <;> first | exact List.mem_singleton.mp nested | cases panics

theorem heard_panics (passive : m.cast.passive) (t : ThreadId) (l : ListenerId) (callback : Callback) :
    ∀ job ∈ (Job.exec m t (.participant (.hear l callback))).2, job = .panic := by
  simp only [Job.exec, ParticipantJob.exec, ParticipantJob.callListener]
  split
  · rename_i listener known
    split
    · exact fun _ none => by cases none
    · exact passive_nested (passive _ (List.mem_map.mpr ⟨listener, List.mem_of_getElem? known, rfl⟩)) _ _
  · exact fun _ none => by cases none

theorem panics_routine {front : List Job} (panics : ∀ job ∈ front, job = .panic) {rest : List Job} {d : Delivery}
    (ends : rest.head? = some (.participant (.delivered d))) : Each (fun job more => job.Routine (more ++ rest)) front := by
  induction front with
  | nil => trivial
  | cons job front ih =>
      obtain rfl := panics _ (List.mem_cons_self ..)
      refine ⟨⟨rfl, fun _ => ?_, fun none => (by cases none), fun none => by cases none⟩,
        ih fun j member => panics j (List.mem_cons_of_mem _ member)⟩
      cases front with
      | nil => exact .inr ⟨d, ends⟩
      | cons next front =>
          obtain rfl := panics next (by simp)
          exact .inl rfl

theorem even_deviceLook (m : Machine) (t : ThreadId) : ∀ job ∈ (Job.exec m t (.deviceLane .look)).2, job.Even := by
  intro job member
  simp only [Job.exec, DeviceLaneJob.exec, DeviceLaneJob.lookAtQueue] at member
  rcases DeviceLane.look_cases m.hub.terminating m.hub.deviceLane with
    ⟨_, seen⟩ | ⟨_, _, seen⟩ | ⟨_, _, seen⟩ <;> rw [seen] at member
  · rcases List.mem_append.mp member with member | member
    · split at member <;> cases member <;> first | exact ⟨rfl, rfl, rfl⟩ | contradiction
    · cases List.mem_singleton.mp member
      exact ⟨rfl, rfl, rfl⟩
  · cases List.mem_singleton.mp member
    exact ⟨rfl, rfl, rfl⟩
  · simp only [List.cons_append, List.mem_cons, List.mem_append, List.mem_map, List.not_mem_nil, or_false] at member
    rcases member with rfl | ⟨_, _, rfl⟩ | rfl | rfl <;> exact ⟨rfl, rfl, rfl⟩

theorem even_laneLook (m : Machine) (t : ThreadId) (id : LaneId) : ∀ job ∈ (Job.exec m t (.dataLane (.look id))).2, job.Even := by
  intro job member
  simp only [Job.exec, DataLaneJob.exec] at member
  split at member
  · rename_i lane _
    simp only [DataLaneJob.lookAtLane] at member
    rcases DataLane.look_cases m.hub.terminating lane with ⟨_, _, seen⟩ | ⟨_, _, seen⟩ | ⟨_, _, _, seen⟩ | ⟨_, _, seen⟩ <;>
      rw [seen] at member
    · rcases List.mem_append.mp member with member | member
      · split at member <;> cases member <;> first | exact ⟨rfl, rfl, rfl⟩ | contradiction
      · simp only [List.mem_cons, List.not_mem_nil, or_false] at member
        rcases member with rfl | rfl <;> exact ⟨rfl, rfl, rfl⟩
    all_goals
      simp only [List.mem_cons, List.not_mem_nil, or_false] at member
      rcases member with rfl | rfl <;> exact ⟨rfl, rfl, rfl⟩
  · cases member

theorem even_next (m : Machine) (apart : t ≠ .caller) (routine : job.routine = true) (quiet : job ≠ .panic)
    (aside : ∀ j, job ≠ .participant j) : ∀ j ∈ (job.exec m t).2, j.Even := by
  cases job with
  | log record =>
      rw [Job.exec, Machine.log, if_neg apart]
      exact fun _ none => by cases none
  | panic => exact absurd rfl quiet
  | deviceLane job =>
      cases job with
      | look => exact even_deviceLook m t
      | _ => cases routine
  | dataLane job =>
      cases job with
      | look id => exact even_laneLook m t id
      | snapshot c batch =>
          intro job member
          rcases List.mem_cons.mp member with rfl | member
          · exact ⟨rfl, rfl, rfl⟩
          · obtain ⟨_, _, rfl⟩ := List.mem_map.mp member
            exact ⟨rfl, rfl, rfl⟩
      | handOver c callback listeners =>
          intro job member
          simp only [Job.exec, DataLaneJob.exec, DataLaneJob.deliverOne] at member
          rcases List.mem_append.mp member with member | member
          · split at member
            · cases member
            · simp only [List.mem_cons, List.not_mem_nil, or_false] at member
              rcases member with rfl | rfl <;> exact ⟨rfl, rfl, rfl⟩
          · cases List.mem_singleton.mp member
            exact ⟨rfl, rfl, rfl⟩
      | mismatch => exact fun _ none => by cases none
      | _ => cases routine
  | participant job => exact absurd rfl (aside job)
  | _ => cases routine

theorem routine_exec (apart : t ≠ .caller) (passive : m.cast.passive) (routine : job.Routine later) (quiet : job ≠ .panic) :
    Each (fun j more => j.Routine (more ++ later)) (job.exec m t).2 := by
  have kind := routine.kind
  cases job with
  | participant job =>
      cases job with
      | hear id callback =>
          obtain ⟨d, ends⟩ := routine.hear rfl
          simp only [Job.exec, ParticipantJob.exec, ParticipantJob.callListener]
          split
          · rename_i l known
            split
            · trivial
            · refine panics_routine (passive_nested (passive _ ?_) _ _) ends
              exact List.mem_map.mpr ⟨l, List.mem_of_getElem? known, rfl⟩
          · trivial
      | deliver d =>
          simp only [Job.exec, ParticipantJob.exec]
          split
          · trivial
          · exact ⟨routine_even rfl rfl _, ⟨rfl, fun none => (by cases none), fun _ => ⟨_, rfl⟩, fun none => by cases none⟩,
              routine_even rfl rfl _, trivial⟩
      | delivered d => exact ⟨routine_even rfl rfl _, trivial⟩
      | _ => cases kind
  | _ => exact each_even (even_next m apart kind quiet fun _ => Job.noConfusion) later

theorem quiet_next (m : Machine) (apart : t ≠ .caller) (routine : job.routine = true) (quiet : job ≠ .panic)
    (deaf : job.hears = false) :
    ∀ j ∈ (job.exec m t).2, j ≠ .panic := by
  intro j member
  by_cases delivers : ∃ p, job = .participant p
  · obtain ⟨p, rfl⟩ := delivers
    cases p with
    | hear => cases deaf
    | deliver d =>
        simp only [Job.exec, ParticipantJob.exec] at member
        split at member
        · cases member
        · simp only [List.mem_cons, List.not_mem_nil, or_false] at member
          rcases member with rfl | rfl | rfl <;> exact Job.noConfusion
    | delivered d =>
        cases List.mem_singleton.mp member
        exact Job.noConfusion
    | _ => cases routine
  · rintro rfl
    cases (even_next m apart routine quiet (fun p same => delivers ⟨p, same⟩) _ member).quiet

-- After a panic in a worker's routine come only panics, up to the end of the listener's call that they came from.
theorem routine_panics (routine : Each Job.Routine (.panic :: later)) :
    ∃ front d rest, later = front ++ .participant (.delivered d) :: rest ∧ (∀ job ∈ front, job = .panic) ∧
      Each Job.Routine (.participant (.delivered d) :: rest) := by
  induction later with
  | nil => rcases routine.1.panic rfl with none | ⟨_, none⟩ <;> cases none
  | cons next behind ih =>
      rcases routine.1.panic rfl with more | ⟨d, ends⟩
      · cases Option.some.inj more
        obtain ⟨front, d, rest, rfl, panics, stands⟩ := ih routine.2
        exact ⟨.panic :: front, d, rest, rfl, List.forall_mem_cons.mpr ⟨rfl, panics⟩, stands⟩
      · cases Option.some.inj ends
        exact ⟨[], d, behind, rfl, List.forall_mem_nil _, routine.2⟩

theorem caught_panics {front rest : List Job} {d : Delivery} (panics : ∀ job ∈ front, job = .panic) :
    Machine.caught? (front ++ .participant (.delivered d) :: rest) = some (ParticipantJob.afterPanic d ++ rest) ∧
      Machine.abandons (front ++ .participant (.delivered d) :: rest) = false := by
  induction front with
  | nil => exact ⟨rfl, rfl⟩
  | cons job front ih =>
      obtain ⟨rfl, behind⟩ := List.forall_mem_cons.mp panics
      exact ih behind

theorem routine_caught (routine : Each Job.Routine (.panic :: later)) :
    ∃ d rest, Machine.caught? later = some (ParticipantJob.afterPanic d ++ rest) ∧ Machine.abandons later = false ∧
      Each Job.Routine (.participant (.delivered d) :: rest) := by
  obtain ⟨front, d, rest, rfl, panics, stands⟩ := routine_panics routine
  exact ⟨d, rest, (caught_panics panics).1, (caught_panics panics).2, stands⟩

theorem routine_afterPanic {d : Delivery} {rest : List Job} (routine : Each Job.Routine (.participant (.delivered d) :: rest)) :
    Each Job.Routine (ParticipantJob.afterPanic d ++ rest) :=
  ⟨⟨rfl, fun none => (by cases none), fun none => (by cases none), fun _ => ⟨_, rfl⟩⟩, routine_even rfl rfl _, routine.2⟩

theorem passive_before (passive : ∀ spec ∈ m'.cast.specs, spec.passive = true) (more : m.cast.specs <+: m'.cast.specs) :
    m.cast.passive :=
  fun spec member => passive spec (more.subset member)

theorem Run.routine (run : Run config hooks past m) : m.cast.passive → ∀ w, dispatches past w → Each Job.Routine (m.agenda w) := by
  refine Run.induct (G := fun _ => True) (P := fun past m => m.cast.passive → ∀ w, dispatches past w → Each Job.Routine (m.agenda w))
    ?construct ?assemble ?call ?client ?carry ?unwind run fun _ _ => trivial
  case construct | assemble => rintro _ _ w (none | ⟨_, none, _⟩) <;> cases none
  case call =>
    intro past m op run before idle passive w works
    rw [agenda_beginWith_other (run.dispatcher_known works).1]
    exact before passive w works
  case client =>
    intro past m name op run before passive w works
    rw [agenda_client_old (run.dispatcher_known works).2]
    exact before passive w works
  case carry =>
    intro past m t job later run before agenda notPanic _ _ passive w works
    have before := before (passive_before passive (specs_exec m t job))
    rcases dispatches_new works with old | mans | ⟨slot, opens, rfl⟩
    · by_cases mine : w = t
      · subst mine
        have routine := before w old
        rw [agenda] at routine
        rw [agenda_carry_self agenda, each_append]
        exact ⟨routine_exec (run.dispatcher_known old).1 (passive_before passive (specs_exec m w job)) routine.1 notPanic, routine.2⟩
      · rw [agenda_carry_old mine (run.dispatcher_known old).2]
        exact before w old
    · rw [agenda_carry_manned agenda mans]
      exact ⟨routine_even rfl rfl _, routine_even rfl rfl _, trivial⟩
    · obtain ⟨_, c, opened⟩ := agenda_carry_opened agenda opens
      rw [opened]
      exact ⟨routine_even rfl rfl _, routine_even rfl rfl _, trivial⟩
  case unwind =>
    intro past m t later run before agenda _ passive w works
    have old := dispatches_panic works
    rw [cast_unwind] at passive
    have routine := before passive w old
    by_cases mine : w = t
    · subst mine
      rw [agenda] at routine
      obtain ⟨d, rest, caught, _, stands⟩ := routine_caught routine
      rw [agenda_unwind_self agenda, kept, caught]
      exact routine_afterPanic stands
    · rwa [agenda_unwind_other mine]

end TransportHub

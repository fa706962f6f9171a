import TransportHub.Proofs.Flow
/-!
Panics: which jobs a panic can drop. A fence says where panics may start, which jobs must not be
dropped, and behind which marks they are safe from whatever comes before.
-/

set_option autoImplicit false

namespace TransportHub

structure Fence where
  mark : Job → Bool
  brittle : Job → Bool
  pinned : Job → Bool

namespace Fence

-- A pinned job stands before the first mark.
def exposed (F : Fence) : List Job → Bool
  | [] => false
  | job :: rest => !F.mark job && (F.pinned job || exposed F rest)

-- There is a mark, and no pinned job stands before it.
def shut (F : Fence) : List Job → Bool
  | [] => false
  | job :: rest => F.mark job || (!F.pinned job && shut F rest)

def Guards (F : Fence) (job : Job) (rest : List Job) : Prop :=
  F.brittle job = true → F.exposed rest = false

def Seals (F : Fence) (job : Job) (rest : List Job) : Prop :=
  F.brittle job = true → F.shut rest = true

def checked (F : Fence) : List Job → Bool
  | [] => true
  | job :: rest => (!F.brittle job || !F.exposed rest) && checked F rest

structure Sound (F : Fence) : Prop where
  panic : F.brittle .panic = true
  fresh : ∀ config u agenda, Fresh config u agenda → Each F.Guards agenda
  caught : ∀ d, (∀ job ∈ ParticipantJob.afterPanic d, F.brittle job = false) ∨
    (F.brittle (.participant (.delivered d)) = true ∧ ∀ job ∈ ParticipantJob.afterPanic d, F.pinned job = false)
  next : ∀ m t job, Each (fun j rest => F.brittle j = true →
    if F.brittle job then F.exposed rest = false else F.shut rest = true) (job.exec m t).2

variable {F : Fence} {config : Config} {hooks : List Hook} {past : List Moment} {m : Machine}
  {t u : ThreadId} {job : Job} {front back later : List Job}

theorem exposed_append (first : F.exposed front = false) (second : F.exposed back = false) :
    F.exposed (front ++ back) = false := by
  induction front with
  | nil => exact second
  | cons job rest ih =>
      simp only [List.cons_append, exposed] at first ⊢
      cases marked : F.mark job with
      | true => rfl
      | false =>
          simp only [marked, Bool.not_false, Bool.true_and, Bool.or_eq_false_iff] at first ⊢
          exact ⟨first.1, ih first.2⟩

theorem exposed_cons (shows : F.exposed (job :: back) = true) :
    F.mark job = false ∧ (F.pinned job = true ∨ F.exposed back = true) := by
  simpa only [exposed, Bool.and_eq_true, Bool.not_eq_true', Bool.or_eq_true] using shows

theorem exposed_behind (unmarked : ∀ job ∈ front, F.mark job = false) (shows : F.exposed back = true) :
    F.exposed (front ++ back) = true := by
  induction front with
  | nil => exact shows
  | cons job rest ih =>
      simp only [List.cons_append, exposed, unmarked job (List.mem_cons_self ..),
        ih fun j member => unmarked j (List.mem_cons_of_mem _ member), Bool.not_false, Bool.or_true, Bool.and_self]

theorem exposed_front (shows : F.exposed front = true) : F.exposed (front ++ back) = true := by
  induction front with
  | nil => exact absurd shows Bool.false_ne_true
  | cons job rest ih =>
      obtain ⟨unmarked, here⟩ := exposed_cons shows
      rw [List.cons_append, exposed, unmarked, Bool.not_false, Bool.true_and, Bool.or_eq_true]
      exact here.imp_right ih

theorem exposed_mem (unmarked : ∀ j ∈ front, F.mark j = false) (member : job ∈ front) (pinned : F.pinned job = true) :
    F.exposed front = true := by
  obtain ⟨before, behind, rfl⟩ := List.append_of_mem member
  refine exposed_behind (fun j earlier => unmarked j (List.mem_append_left _ earlier)) ?_
  rw [exposed, unmarked job member, pinned]
  rfl

theorem exposed_either (shows : F.exposed (front ++ back) = true) : F.exposed front = true ∨ F.exposed back = true := by
  cases here : F.exposed front with
  | true => exact .inl rfl
  | false =>
      refine .inr ?_
      cases behind : F.exposed back with
      | true => rfl
      | false =>
          rw [exposed_append here behind] at shows
          cases shows

theorem exposed_shut (first : F.shut front = true) : F.exposed (front ++ back) = false := by
  induction front with
  | nil => cases first
  | cons job rest ih =>
      simp only [List.cons_append, exposed, shut] at first ⊢
      cases marked : F.mark job with
      | true => rfl
      | false =>
          simp only [marked, Bool.false_or, Bool.and_eq_true, Bool.not_eq_true'] at first
          simp only [first.1, ih first.2, Bool.or_self, Bool.and_false]

theorem exposed_unpinned (loose : ∀ job ∈ front, F.pinned job = false) : F.exposed front = false := by
  induction front with
  | nil => rfl
  | cons job rest ih =>
      simp only [exposed, loose job (List.mem_cons_self ..),
        ih fun j member => loose j (List.mem_cons_of_mem _ member), Bool.or_self, Bool.and_false]

theorem shut_unpinned (loose : ∀ job ∈ front, F.pinned job = false) (closed : F.shut back = true) :
    F.shut (front ++ back) = true := by
  induction front with
  | nil => exact closed
  | cons job rest ih =>
      simp only [List.cons_append, shut, loose job (List.mem_cons_self ..),
        ih fun j member => loose j (List.mem_cons_of_mem _ member), Bool.not_false, Bool.and_self, Bool.or_true]

theorem each_shut (back : List Job) (loose : ∀ job ∈ front, F.pinned job = false) (closed : F.shut back = true)
    (quiet : ∀ job ∈ back, F.brittle job = false) :
    Each F.Seals (front ++ back) := by
  induction front with
  | nil => exact each_of_forall fun job member _ brittle => by simp [quiet job member] at brittle
  | cons job rest ih =>
      have tail : ∀ j ∈ rest, F.pinned j = false := fun j member => loose j (List.mem_cons_of_mem _ member)
      exact ⟨fun _ => shut_unpinned tail closed, ih tail⟩

theorem each_checked (check : F.checked front = true) : Each F.Guards front := by
  induction front with
  | nil => trivial
  | cons job rest ih =>
      simp only [checked, Bool.and_eq_true] at check
      refine ⟨fun brittle => ?_, ih check.2⟩
      rw [brittle, Bool.not_true, Bool.false_or] at check
      exact Bool.not_eq_true' _ ▸ check.1

theorem each_exposed (loose : ∀ job ∈ front, F.pinned job = false) :
    Each F.Guards front := by
  induction front with
  | nil => trivial
  | cons job rest ih =>
      have tail : ∀ j ∈ rest, F.pinned j = false := fun j member => loose j (List.mem_cons_of_mem _ member)
      exact ⟨fun _ => exposed_unpinned tail, ih tail⟩

theorem Sound.run (sound : F.Sound) (run : Run config hooks past m) : ∀ u, Each F.Guards (m.agenda u) := by
  refine Run.each (G := fun _ => True) (P := fun _ => F.Guards) (sound.fresh config) ?next ?caught run
    fun _ _ => trivial
  case next =>
    intro past m t job later _ each agenda _ _ _
    have here := each t
    rw [agenda] at here
    refine each_imp (fun j rest guarded brittle => ?_) (sound.next m t job)
    have covered := guarded brittle
    cases kind : F.brittle job with
    | true =>
        rw [kind, if_pos rfl] at covered
        exact exposed_append covered (here.1 kind)
    | false =>
        rw [kind, if_neg Bool.false_ne_true] at covered
        exact exposed_shut covered
  case caught =>
    intro u d rest each
    rcases sound.caught d with firm | ⟨brittle, loose⟩
    · refine each_append.mpr ⟨each_of_forall fun job member _ brittle => ?_, each.2⟩
      rw [firm job member] at brittle
      cases brittle
    · exact each_append.mpr ⟨each_imp (fun _ _ guarded here => exposed_append (guarded here) (each.1 brittle))
        (each_exposed loose), each.2⟩

theorem cut_loose (safe : F.exposed later = false) (inside : ∀ job ∈ cut later, F.mark job = false) :
    ∀ job ∈ cut later, F.pinned job = false := by
  fun_induction cut later with
  | case1 => exact fun _ member => by cases member
  | case2 => exact fun _ member => by cases member
  | case3 job rest other ih =>
      have unmarked := inside job (List.mem_cons_self ..)
      simp only [exposed, unmarked, Bool.not_false, Bool.true_and, Bool.or_eq_false_iff] at safe
      intro j member
      rcases List.mem_cons.mp member with rfl | member
      · exact safe.1
      · exact ih safe.2 (fun k inner => inside k (List.mem_cons_of_mem _ inner)) j member

theorem Sound.dropped (sound : F.Sound) (run : Run config hooks past m)
    (agenda : m.agenda t = .panic :: later) (inside : ∀ job ∈ cut later, F.mark job = false) :
    ∀ job ∈ cut later, F.pinned job = false := by
  have each := sound.run run t
  rw [agenda] at each
  exact cut_loose (each.1 sound.panic) inside

structure Open (F : Fence) : Prop where
  ends : F.pinned .panic = false ∧ F.pinned .hold = false ∧ F.pinned .enter = false
  perform : ∀ op, F.pinned (.perform op) = false
  leave : ∀ op, F.pinned (.leave op) = false
  resume : F.mark .resume = true ∧ F.brittle .resume = false
  delivered : ∀ d, F.mark (.participant (.delivered d)) = true ∧ F.brittle (.participant (.delivered d)) = false
  log : ∀ record, F.brittle (.log record) = false

theorem Open.nested (free : F.Open) (ops : List Op) : ∀ job ∈ ops.flatMap Job.nested, F.pinned job = false := by
  intro job member
  obtain ⟨op, _, member⟩ := List.mem_flatMap.mp member
  unfold Job.nested at member
  split at member <;> simp only [List.mem_cons, List.not_mem_nil, or_false] at member
  · exact member ▸ free.ends.1
  · exact member ▸ free.ends.2.1
  · rcases member with rfl | rfl | rfl
    · exact free.ends.2.2
    · exact free.perform _
    · exact free.leave _

theorem Open.next_log (free : F.Open) (record : Log.Record) : Each F.Seals ((Job.log record).exec m t).2 := by
  simp only [Job.exec, Machine.log]
  split
  · refine each_shut _ (free.nested _) ?_ (List.forall_mem_singleton.mpr free.resume.2)
    simp only [shut, free.resume.1, Bool.true_or]
  · trivial

theorem Open.next_deliver (free : F.Open) (d : Delivery) :
    Each F.Seals ((Job.participant (.deliver d)).exec m t).2 := by
  simp only [Job.exec, ParticipantJob.exec]
  split
  · trivial
  · refine ⟨fun brittle => ?_, fun _ => ?_, fun brittle => ?_, trivial⟩
    · rw [free.log] at brittle
      cases brittle
    · simp only [shut, (free.delivered _).1, Bool.true_or]
    · rw [(free.delivered _).2] at brittle
      cases brittle

end Fence

variable {config : Config} {hooks : List Hook} {past : List Moment} {m : Machine} {t : ThreadId}
  {job : Job} {later : List Job}

-- After these come operations of scripts and hooks, in front of a mark.
def Job.opening : Job → Bool
  | .log _ | .participant (.call ..) | .participant (.deliver _) => true
  | _ => false

def Job.smooth : Job → Bool
  | .log _ | .acquire _ | .release _ | .answer _ | .resume | .join .. => true
  | .deviceLane job => (job matches .enqueue _ | .discard | .push _ | .look)
  | .dataLane job => !(job matches .start _ | .spawn _ | .close _ | .wake _)
  | .participant job => (job matches .deliver _ | .delivered _)
  | _ => false

-- No work on a queue is dropped unless a panic comes out of a log hook.
def Fence.queues : Fence where
  mark job := (job matches .resume | .participant (.delivered _))
  brittle job := !job.smooth
  pinned
    | .deviceLane job => (job matches .discard | .push _ | .look)
    | .dataLane job => !(job matches .start _ | .stop _ | .close _ | .wake _)
    | .participant job => (job matches .deliver _)
    | _ => false

theorem queues_open : Fence.queues.Open :=
  ⟨⟨rfl, rfl, rfl⟩, fun _ => rfl, fun _ => rfl, ⟨rfl, rfl⟩, fun _ => ⟨rfl, rfl⟩, fun _ => rfl⟩

theorem queues_source {j : Job} (leads : job.leads j = true) (pinned : Fence.queues.pinned j = true) :
    job.smooth = true ∨ (∃ c, job = .dataLane (.start c)) ∨ (∃ c, job = .dataLane (.spawn c)) ∨
      (∃ op, job = .perform op) ∨ ∃ key c sequence status, job = .participant (.complete key c sequence status) := by
  cases j with
  | deviceLane j | dataLane j | participant j =>
      cases j <;> first
        | (cases pinned; done)
        | (dsimp only [Job.leads] at leads
           split at leads <;> first
             | exact .inl rfl
             | exact .inr (.inl ⟨_, rfl⟩)
             | exact .inr (.inr (.inl ⟨_, rfl⟩))
             | exact .inr (.inr (.inr (.inl ⟨_, rfl⟩)))
             | exact .inr (.inr (.inr (.inr ⟨_, _, _, _, rfl⟩)))
             | cases leads)
  | _ => cases pinned

theorem queues_smooth (m : Machine) (t : ThreadId) (job : Job) (smooth : job.smooth = true)
   (plain : job.opening = false) : Every Job.smooth (job.exec m t).2 := by
  cases job with
  | deviceLane job =>
    cases job with
    | discard | push | enqueue | look =>
      simp only [Job.exec, DeviceLaneJob.exec, DeviceLaneJob.lookAtQueue]
      repeat' split
      all_goals simp <;> and_intros <;> intros <;> rfl
    | _ => cases smooth
  | dataLane job =>
    cases job with
    | start | spawn | close | wake => cases smooth
    | _ =>
      simp only [Job.exec, DataLaneJob.exec, DataLaneJob.lookAtLane, DataLaneJob.refuse, DataLaneJob.deliverOne]
      repeat' split
      all_goals simp <;> and_intros <;> intros <;> rfl
  | participant job =>
    cases job with
    | delivered d => exact every_one rfl
    | deliver => cases plain
    | _ => cases smooth
  | log => cases plain
  | acquire | release | answer | resume => exact every_nil _
  | join lane worker =>
      simp only [Job.exec]
      repeat' split
      all_goals first | exact every_nil _ | exact every_one rfl
  | _ => cases smooth

-- Nothing of a procedure is dropped unless a panic comes out of an adapter or of a log hook.
def Fence.procedures : Fence where
  mark job := (job matches .resume | .participant (.returned ..) | .participant (.delivered _))
  brittle
    | .panic | .perform _ | .await _ | .participant (.hear ..) | .hub .run | .hub (.connect ..) => true
    | .deviceLane job => (job matches .start | .spawn)
    | .dataLane job => (job matches .start _ | .spawn _)
    | _ => false
  pinned
    | .panic | .perform _ | .leave _ | .enter | .hold | .held | .answer _ => false
    | .participant job => !(job matches .complete .. | .reported)
    | .hub job => !(job matches .laneStarted | .connectionStarted ..)
    | _ => true

theorem checked_perform (m : Machine) (op : Op) :
    Fence.queues.checked (m.perform op).2 = true ∧ Fence.procedures.checked (m.perform op).2 = true := by
  cases op with
  | report source r =>
    simp only [Machine.perform, Machine.performOwned]
    split
    · cases r <;> exact ⟨rfl, rfl⟩
    · exact ⟨rfl, rfl⟩
  | contextReport name r =>
    simp only [Machine.perform, ParticipantJob.reportThrough]
    split
    · split
      · cases r <;> exact ⟨rfl, rfl⟩
      · exact ⟨rfl, rfl⟩
    · exact ⟨rfl, rfl⟩
  | registry op | deviceLane op | dataLanes op =>
    cases op <;> simp only [Machine.perform, Machine.performOwned, RegistryOp.exec, DeviceLaneOp.exec, DataLanesOp.exec] <;> split <;>
      exact ⟨rfl, rfl⟩
  | context name query =>
    simp only [Machine.perform]
    split
    · cases query <;> exact ⟨rfl, rfl⟩
    · exact ⟨rfl, rfl⟩
  | setType | release =>
    simp only [Machine.perform]
    repeat' split
    all_goals exact ⟨rfl, rfl⟩
  | _ =>
    simp only [Machine.perform, Machine.performOwned, ContextQuery.exec]
    split <;>  exact ⟨rfl, rfl⟩

theorem queues_brittle (m : Machine) (t : ThreadId) (job : Job) (kind : Fence.queues.brittle job = true) :
    Each Fence.queues.Guards (job.exec m t).2 := by
  by_cases unlike : (∃ c, job = .dataLane (.start c)) ∨ (∃ c, job = .dataLane (.spawn c)) ∨
      (∃ op, job = .perform op) ∨ ∃ key c sequence status, job = .participant (.complete key c sequence status)
  · rcases unlike with ⟨c, rfl⟩ | ⟨c, rfl⟩ | ⟨op, rfl⟩ | ⟨key, c, sequence, status, rfl⟩
    · simp only [Job.exec, DataLaneJob.exec]
      repeat' split
      all_goals exact Fence.each_checked rfl
    · simp only [Job.exec, DataLaneJob.exec]
      split <;> exact Fence.each_checked rfl
    · exact Fence.each_checked (checked_perform m op).1
    · simp only [Job.exec, ParticipantJob.exec, ParticipantJob.reportThrough]
      repeat' split
      all_goals exact Fence.each_checked rfl
  · refine Fence.each_exposed fun j member => ?_
    cases pinned : Fence.queues.pinned j with
    | false => rfl
    | true =>
        have smooth := (queues_source (leads_exec m t job j member) pinned).resolve_right unlike
        simp [Fence.queues, smooth] at kind

theorem smooth_sound {F : Fence} (free : F.Open) (kinds : F.brittle = Fence.queues.brittle)
    (fresh : ∀ config u agenda, Fresh config u agenda → Each F.Guards agenda)
    (next : ∀ m t job, F.brittle job = true → Each F.Guards (job.exec m t).2) : F.Sound where
  panic := by rw [kinds]; rfl
  fresh := fresh
  caught := by
    intro d
    rw [kinds]
    simp only [ParticipantJob.afterPanic, List.forall_mem_cons]
    exact .inl ⟨rfl, rfl, fun _ member => by cases member⟩
  next := by
    intro m t job
    cases kind : F.brittle job with
    | true =>
      simp only [if_true]
      exact next m t job kind
    | false =>
      simp only [Bool.false_eq_true, if_false]
      have smooth : job.smooth = true := by simpa [kinds, Fence.queues] using kind
      cases plain : job.opening with
      | true =>
        cases job with
        | log record => exact free.next_log record
        | participant job =>
            cases job with
            | deliver d => exact free.next_deliver d
            | call => cases smooth
            | _ => cases plain
        | _ => cases plain
      | false =>
        refine each_of_forall fun j member rest brittle => ?_
        have here := queues_smooth m t job smooth plain j member
        simp [kinds, Fence.queues, here] at brittle

theorem queues_sound : Fence.queues.Sound := by
  refine smooth_sound queues_open rfl ?_ queues_brittle
  intro config u agenda fresh
  cases fresh <;> and_intros <;> first | trivial | (intro brittle; first | rfl | cases brittle)

theorem procedures_open : Fence.procedures.Open :=
  ⟨⟨rfl, rfl, rfl⟩, fun _ => rfl, fun _ => rfl, ⟨rfl, rfl⟩, fun _ => ⟨rfl, rfl⟩, fun _ => rfl⟩

theorem procedures_source {j : Job} (leads : job.leads j = true) (brittle : Fence.procedures.brittle j = true) :
    Fence.procedures.brittle job = true ∨ job.opening = true := by
  cases j with
  | deviceLane j | dataLane j | participant j | hub j =>
      cases j <;> first
        | (cases brittle; done)
        | (dsimp only [Job.leads] at leads; split at leads <;> first | exact .inl rfl | exact .inr rfl | cases leads)
  | panic | perform | await =>
     (dsimp only [Job.leads] at leads; split at leads <;> first | exact .inl rfl | exact .inr rfl | cases leads)
  | _ => cases brittle

theorem procedures_brittle (m : Machine) (t : ThreadId) (job : Job) (kind : Fence.procedures.brittle job = true) :
    Each Fence.procedures.Guards (job.exec m t).2 := by
  cases job with
  | perform op => exact Fence.each_checked (checked_perform m op).2
  | panic => trivial
  | await threads =>
      simp only [Job.exec]
      split
      · exact ⟨fun _ => rfl, trivial⟩
      · trivial
  | participant job =>
    cases job with
    | hear id callback =>
      simp only [Job.exec, ParticipantJob.exec, ParticipantJob.callListener]
      repeat' split
      · trivial
      · exact Fence.each_exposed (procedures_open.nested _)
      · trivial
    | _ => cases kind
  | hub job =>
    cases job with
    | run | connect =>
      simp only [Job.exec, HubJob.exec]
      repeat' split
      all_goals exact Fence.each_checked rfl
    | _ => cases kind
  | deviceLane job =>
    cases job with
    | start | spawn =>
      simp only [Job.exec, DeviceLaneJob.exec]
      repeat' split
      all_goals exact Fence.each_checked rfl
    | _ => cases kind
  | dataLane job =>
    cases job with
    | start | spawn =>
      simp only [Job.exec, DataLaneJob.exec]
      repeat' split
      all_goals exact Fence.each_checked rfl
    | _ => cases kind
  | _ => cases kind

theorem procedures_call (m : Machine) (t : ThreadId) (id : AdapterId) (key : AdapterKey) (c : AdapterCall) :
    Each Fence.procedures.Seals ((Job.participant (.call id key c)).exec m t).2 := by
  simp only [Job.exec, ParticipantJob.exec, ParticipantJob.callAdapter]
  split
  · cases (ParticipantJob.minimalAnswer? c).filter fun _ => _ with
    | some reply => exact ⟨fun brittle => (by cases brittle), fun brittle => (by cases brittle), trivial⟩
    | none =>
        refine Fence.each_shut [_] (fun j member => ?_) rfl (List.forall_mem_singleton.mpr rfl)
        rcases List.mem_append.mp member with member | member
        · exact procedures_open.nested _ j member
        · unfold ParticipantJob.conclude at member
          repeat' split at member
          all_goals simp only [List.mem_cons, List.not_mem_nil, or_false] at member
          all_goals first | (subst member; rfl) | (rcases member with rfl | rfl <;> rfl)
  · trivial

theorem procedures_sound : Fence.procedures.Sound where
  panic := rfl
  fresh := by
    intro config u agenda fresh
    cases fresh <;> exact Fence.each_checked rfl
  caught := by
    intro d
    simp only [ParticipantJob.afterPanic, List.forall_mem_cons]
    exact .inl ⟨rfl, rfl, fun _ member => by cases member⟩
  next := by
    intro m t job
    cases kind : Fence.procedures.brittle job with
    | true =>
      simp only [if_true]
      exact procedures_brittle m t job kind
    | false =>
      simp only [Bool.false_eq_true, if_false]
      cases opening : job.opening with
      | true =>
          cases job with
          | log record => exact procedures_open.next_log record
          | participant job =>
              cases job with
              | deliver d => exact procedures_open.next_deliver d
              | call id key c => exact procedures_call m t id key c
              | _ => cases opening
          | _ => cases opening
      | false =>
          refine each_of_forall fun j member rest brittle => ?_
          rcases procedures_source (leads_exec m t job j member) brittle with same | same
          · rw [kind] at same
            cases same
          · rw [opening] at same
            cases same

-- No panic comes out of a log hook here, and none out of an adapter.
def Moment.hookSafe (x : Moment) : Prop := ∀ job ∈ x.dropped, job ≠ .resume

def Moment.adapterSafe (x : Moment) : Prop := ∀ job ∈ x.dropped, ∀ id call, job ≠ .participant (.returned id call)

instance (x : Moment) : Decidable x.hookSafe :=
  decidable_of_iff (∀ job ∈ x.dropped, (job matches .resume) = false) <| by
    refine forall_congr' fun job => imp_congr_right fun _ => ?_
    cases job <;> simp

instance (x : Moment) : Decidable x.adapterSafe :=
  decidable_of_iff (∀ job ∈ x.dropped, (job matches .participant (.returned ..)) = false) <| by
    refine forall_congr' fun job => imp_congr_right fun _ => ?_
    cases job with
    | participant job => cases job <;> simp
    | _ => simp

theorem unmarked_cut (hooked : Moment.hookSafe ⟨m, t, .panic, later⟩) : ∀ job ∈ cut later, Fence.queues.mark job = false := by
  intro job inside
  cases job with
  | resume => exact absurd rfl (hooked _ inside)
  | participant p =>
      cases p with
      | delivered d => exact absurd rfl (cut_open inside d)
      | _ => rfl
  | _ => rfl

theorem Run.queues_kept (run : Run config hooks past m) {x : Moment} (member : x ∈ past) (hooked : x.hookSafe) :
    ∀ job ∈ x.dropped, Fence.queues.pinned job = false := by
  obtain ⟨earlier, _, reached, agenda⟩ := run.reached member
  obtain ⟨m, t, job, later⟩ := x
  cases job with
  | panic => exact queues_sound.dropped reached agenda (unmarked_cut hooked)
  | _ => exact fun _ none => by cases none

theorem Run.procedures_kept (run : Run config hooks past m) {x : Moment} (member : x ∈ past)
    (hooked : x.hookSafe) (adapted : x.adapterSafe) :
    ∀ job ∈ x.dropped, Fence.procedures.pinned job = false := by
  obtain ⟨earlier, _, reached, agenda⟩ := run.reached member
  obtain ⟨m, t, job, later⟩ := x
  cases job with
  | panic =>
      refine procedures_sound.dropped reached agenda fun j inside => ?_
      cases j with
      | resume => exact absurd rfl (hooked _ inside)
      | participant p =>
          cases p with
          | delivered d => exact absurd rfl (cut_open inside d)
          | returned id call => exact absurd rfl (adapted _ inside id call)
          | _ => rfl
      | _ => rfl
  | _ => exact fun _ none => by cases none

def Job.crew : Job → Bool
  | .deviceLane job => (job matches .look)
  | .dataLane job => (job matches .look _ | .snapshot .. | .handOver .. | .mismatch)
  | .participant job => (job matches .deliver _ | .delivered _)
  | _ => false

theorem crew_source {j : Job} (leads : job.leads j = true) (crew : j.crew = true) : job.crew = true := by
  cases j with
  | deviceLane j | dataLane j | participant j =>
      cases j <;> first
        | (cases crew; done)
        | (dsimp only [Job.leads] at leads; split at leads <;> first | rfl | cases leads)
  | _ => cases crew

theorem crew_pinned (crew : job.crew = true) (unmarked : ∀ d, job ≠ .participant (.delivered d)) :
    Fence.queues.pinned job = true := by
  cases job with
  | deviceLane j | dataLane j | participant j =>
      cases j <;> first | rfl | (cases crew; done) | exact absurd rfl (unmarked _)
  | _ => cases crew

theorem Run.apart (run : Run config hooks past m) (u : ThreadId) : Each (fun job _ =>
    (job.crew = true → u ≠ .caller) ∧ (job = .resume → u = .caller)) (m.agenda u) := by
  refine Run.each (G := fun _ => True)
    (P := fun u job _ => (job.crew = true → u ≠ .caller) ∧ (job = .resume → u = .caller))
    ?fresh ?next ?caught run (fun _ _ => trivial) u
  case fresh =>
    intro u agenda fresh
    cases fresh with
    | deviceWorker _ started =>
        exact ⟨⟨fun _ => started, fun same => by cases same⟩, ⟨fun _ => started, fun same => by cases same⟩, trivial⟩
    | dataWorker _ started =>
        exact ⟨⟨fun _ => started, fun same => by cases same⟩, ⟨fun _ => started, fun same => by cases same⟩, trivial⟩
    | _ =>
        refine each_of_forall fun job member rest => ?_
        simp only [Machine.construction, Machine.assembly, List.mem_cons, List.not_mem_nil, or_false] at member
        first
          | (subst member; exact ⟨fun crew => (by cases crew), fun same => (by cases same)⟩)
          | (rcases member with rfl | rfl <;> exact ⟨fun crew => (by cases crew), fun same => (by cases same)⟩)
  case next =>
    intro past m t job later _ each agenda _ _ _
    have here := each t
    rw [agenda] at here
    refine each_of_forall fun j member rest => ⟨fun crew => here.1.1 ?_, fun resume => ?_⟩
    · exact crew_source (leads_exec m t job j member) crew
    · subst resume
      have leads := leads_exec m t job _ member
      dsimp only [Job.leads] at leads
      split at leads
      · simp only [Job.exec, Machine.log] at member
        split at member
        · assumption
        · cases member
      · cases leads
  case caught =>
    intro u d rest each
    have started := each.1.1 rfl
    exact ⟨⟨fun _ => started, fun same => by cases same⟩, ⟨fun _ => started, fun same => by cases same⟩, each.2⟩

theorem Run.crew_kept (run : Run config hooks past m) {x : Moment} (member : x ∈ past) :
    ∀ job ∈ x.dropped, job.crew = false := by
  obtain ⟨earlier, _, reached, agenda⟩ := run.reached member
  have apart := reached.apart x.thread
  rw [agenda] at apart
  intro job dropped
  cases crew : job.crew with
  | false => rfl
  | true =>
      have inside : ∀ j ∈ x.dropped, j ∈ x.later := by
        intro j gone
        unfold Moment.dropped at gone
        split at gone
        · exact cut_mem gone
        · cases gone
      obtain ⟨_, _, _, here⟩ := each_mem apart.2 (inside job dropped)
      have hooked : x.hookSafe := by
        intro j gone resume
        obtain ⟨_, _, _, there⟩ := each_mem apart.2 (inside j gone)
        exact here.1 crew (there.2 resume)
      have unmarked : ∀ d, job ≠ .participant (.delivered d) := by
        intro d
        unfold Moment.dropped at dropped
        split at dropped
        · exact cut_open dropped d
        · cases dropped
      have loose := run.queues_kept member hooked job dropped
      rw [crew_pinned crew unmarked] at loose
      cases loose

theorem Run.crew_stays (run : Run config hooks past m) (agenda : m.agenda t = .panic :: later) :
    ∀ job ∈ cut later, job.crew = false :=
  (run.step agenda (step_panic agenda)).crew_kept (List.mem_append_right _ (List.mem_singleton.mpr rfl))

theorem Run.queues_stay (run : Run config hooks past m) (agenda : m.agenda t = .panic :: later)
    (hooked : Moment.hookSafe ⟨m, t, .panic, later⟩) : ∀ job ∈ cut later, Fence.queues.pinned job = false :=
  (run.step agenda (step_panic agenda)).queues_kept (List.mem_append_right _ (List.mem_singleton.mpr rfl)) hooked

theorem Run.procedures_stay (run : Run config hooks past m) (agenda : m.agenda t = .panic :: later)
    (hooked : Moment.hookSafe ⟨m, t, .panic, later⟩) (adapted : Moment.adapterSafe ⟨m, t, .panic, later⟩) :
    ∀ job ∈ cut later, Fence.procedures.pinned job = false :=
  (run.step agenda (step_panic agenda)).procedures_kept (List.mem_append_right _ (List.mem_singleton.mpr rfl)) hooked adapted

end TransportHub

import Mathlib.Data.List.Nodup
import TransportHub.Proofs.Counters
import TransportHub.Proofs.Load
/-!
Numbering: which devices, connections and frames get which numbers. As long as a word counts them, each counter
gives out every number once, in ascending order and without a gap; an adapter is handed at most one frame of a
number, and at most one send comes back with it.
-/

set_option autoImplicit false

namespace TransportHub

variable {config : Config} {hooks : List Hook} {past before since : List Moment} {m : Machine} {t : ThreadId} {job : Job}
  {later : List Job} {x : Moment} {s : FrameSequence} {mark : Job → Option FrameSequence} {kind : HandleKind}

-- The counter that a job draws on. Contexts draw on the same counters as the hub, whatever has become of it.
def ContextQuery.draws : ContextQuery → Option HandleKind
  | nextDevice => some .device
  | nextConnection => some .connection
  | _ => none

def Job.draws (m : Machine) : Job → Option HandleKind
  | .perform .nextDevice => if m.hub.owned then some .device else none
  | .perform .nextConnection => if m.hub.owned then some .connection else none
  | .perform (.context name query) => ((m.cast.namedAdapter? name).bind (·.2.context)).bind fun _ => query.draws
  | .hub (.forward ..) => some .frame
  | _ => none

def Moment.allots (x : Moment) : Option (HandleKind × Nat) :=
  (x.job.draws x.machine).map fun kind => (kind, x.machine.hub.handles.next kind)

def allotted (past : List Moment) : List (HandleKind × Nat) := past.filterMap Moment.allots

theorem allotted_snoc : allotted (past ++ [x]) = allotted past ++ x.allots.toList := by
  rw [allotted, List.filterMap_append]
  exact congrArg _ (by cases here : x.allots <;> simp [here])

def Job.numbers (m : Machine) : Job → Option FrameSequence
  | .hub (.forward ..) => some m.hub.handles.nextFrame
  | _ => none

def Job.ships : Job → Option FrameSequence
  | .participant (.call _ _ (.send _ s _)) => some s
  | _ => none

def Job.settles : Job → Option FrameSequence
  | .hub (.sent s) => some s
  | _ => none

def numbered (past : List Moment) : List FrameSequence := past.filterMap fun x => x.job.numbers x.machine

def marked (mark : Job → Option FrameSequence) (past : List Moment) : List FrameSequence := past.filterMap fun x => mark x.job

theorem handles_perform (m : Machine) (op : Op) :
    (m.perform op).1.hub.handles = ((Job.perform op).draws m).elim m.hub.handles m.hub.handles.advance := by
  cases op with
  | contextReport | setType | release =>
      simp only [Machine.perform]
      repeat' split
      all_goals rfl
  | context name query =>
      simp only [Machine.perform, Job.draws]
      cases (m.cast.namedAdapter? name).bind (·.2.context) with
      | none => rfl
      | some id => cases query <;> rfl
  | nextDevice | nextConnection =>
      simp only [Machine.perform, Job.draws]
      split <;> rfl
  | registry op | deviceLane op | dataLanes op =>
      cases op <;> simp only [Machine.perform, Machine.performOwned, DataLanesOp.exec] <;> repeat' split
      all_goals rfl
  | connectAtOnce threads device c =>
      simp only [Machine.perform]
      split
      · simp only [Machine.performOwned]
        have same : ∀ threads (m : Machine), (m.spawnReporters device c threads).2.hub = m.hub := by
          intro threads
          induction threads with
          | zero => exact fun _ => rfl
          | succ threads ih => exact fun m => ih _
        rw [same]
        rfl
      · rfl
  | _ =>
      simp only [Machine.perform]
      split <;> rfl

theorem handles_exec (m : Machine) (t : ThreadId) (job : Job) :
    (job.exec m t).1.hub.handles = (job.draws m).elim m.hub.handles m.hub.handles.advance := by
  cases job with
  | perform op => exact handles_perform m op
  | log record =>
      simp only [Job.exec, Machine.log]
      split <;> rfl
  | hold =>
      simp only [Job.exec]
      split <;> rfl
  | registry job =>
      cases job with
      | withdraw | replace =>
          simp only [Job.exec, RegistryJob.exec]
          split <;> rfl
      | _ => rfl
  | deviceLane job =>
      cases job with
      | spawn | look =>
          simp only [Job.exec, DeviceLaneJob.exec, DeviceLaneJob.lookAtQueue]
          split <;> rfl
      | _ => rfl
  | dataLane job =>
      cases job with
      | spawn | publish | stop | push | look =>
          simp only [Job.exec, DataLaneJob.exec, DataLaneJob.lookAtLane]
          repeat' split
          all_goals rfl
      | _ => rfl
  | participant job =>
      cases job with
      | call id key call =>
          simp only [Job.exec, ParticipantJob.exec, ParticipantJob.callAdapter]
          repeat' split
          all_goals simp_all [Job.draws]
      | hear =>
          simp only [Job.exec, ParticipantJob.exec, ParticipantJob.callListener]
          repeat' split
          all_goals rfl
      | deliver d =>
          simp only [Job.exec, ParticipantJob.exec]
          split <;> rfl
      | _ => rfl
  | hub job =>
      cases job with
      | raiseTermination | laneStarted =>
          simp only [Job.exec, HubJob.exec]
          repeat' split
          all_goals rfl
      | _ => rfl
  | _ => rfl

theorem handles_unwind (m : Machine) (t : ThreadId) (later : List Job) : (m.unwind t later).hub.handles = m.hub.handles := by
  rcases hub_unwind m t later with hub | hub <;> rw [hub]

theorem issuedFor_snoc (kind : HandleKind) (past : List Moment) (x : Moment) :
    issuedFor kind (allotted (past ++ [x])) = issuedFor kind (allotted past) ++ issuedFor kind x.allots.toList := by
  rw [allotted_snoc, issuedFor, List.filter_append, List.map_append]
  rfl

theorem next_last (h : Handles) (kind : HandleKind) : h.next kind = (h.last kind + 1) % UInt32.size :=
  toNat_succ (h.counter kind)

theorem Run.allotted_words (run : Run config hooks past m) (kind : HandleKind) :
    issuedFor kind (allotted past) = words (issuedFor kind (allotted past)).length ∧
      m.hub.handles.last kind = (issuedFor kind (allotted past)).length % UInt32.size := by
  refine Run.induct (G := fun _ => True) (P := fun past m =>
      issuedFor kind (allotted past) = words (issuedFor kind (allotted past)).length ∧
        m.hub.handles.last kind = (issuedFor kind (allotted past)).length % UInt32.size)
    ?construct ?assemble ?call ?client ?carry ?unwind run fun _ _ => trivial
  case construct | assemble => exact ⟨rfl, by cases kind <;> rfl⟩
  case call => exact fun _ _ before _ => before
  case client => exact fun _ _ _ before => before
  case carry =>
    intro past m t job later _ before _ _ _ _
    obtain ⟨given, last⟩ := before
    rw [issuedFor_snoc, hub_carry, handles_exec]
    by_cases here : job.draws m = some kind
    · have next : m.hub.handles.next kind = ((issuedFor kind (allotted past)).length + 1) % UInt32.size := by
        rw [next_last, last, Nat.mod_add_mod]
      have allots : issuedFor kind (Moment.allots ⟨m, t, job, later⟩).toList = [m.hub.handles.next kind] := by
        simp [Moment.allots, here, issuedFor]
      rw [allots, here, Option.elim_some, Handles.last_advance, if_pos rfl, List.length_append, List.length_singleton, words_succ,
        ← given, next]
      exact ⟨rfl, rfl⟩
    · have none : issuedFor kind (Moment.allots ⟨m, t, job, later⟩).toList = [] := by
        cases drawn : job.draws m with
        | none => simp [Moment.allots, drawn, issuedFor]
        | some other =>
            have apart : other ≠ kind := fun same => here (same ▸ drawn)
            simp [Moment.allots, drawn, issuedFor, apart]
      have same : ((job.draws m).elim m.hub.handles m.hub.handles.advance).last kind = m.hub.handles.last kind := by
        cases drawn : job.draws m with
        | none => rfl
        | some other =>
            have apart : kind ≠ other := fun same => here (same ▸ drawn)
            simp [apart]
      rw [none, List.append_nil, same]
      exact ⟨given, last⟩
  case unwind =>
    intro past m t later _ before _ _
    have none : issuedFor kind (Moment.allots ⟨m, t, .panic, later⟩).toList = [] := rfl
    rw [issuedFor_snoc, handles_unwind, none, List.append_nil]
    exact before

theorem Run.allotted_all (run : Run config hooks past m) (few : (issuedFor kind (allotted past)).length < UInt32.size) :
    issuedFor kind (allotted past) = List.range' 1 (m.hub.handles.last kind) := by
  obtain ⟨given, last⟩ := run.allotted_words kind
  rw [last, Nat.mod_eq_of_lt few, ← words_few few]
  exact given

theorem numbered_allotted (past : List Moment) : numbered past = (issuedFor .frame (allotted past)).map FrameSequence.mk := by
  rw [issuedFor, allotted, List.filter_filterMap, List.map_filterMap, List.map_filterMap]
  refine congrArg (List.filterMap · past) (funext fun x => ?_)
  obtain ⟨m, t, job, later⟩ := x
  cases job with
  | hub job => cases job <;> rfl
  | perform op =>
      cases op with
      | nextDevice | nextConnection =>
          simp only [Moment.allots, Job.draws]
          split <;> rfl
      | context name query =>
          simp only [Moment.allots, Job.draws]
          cases (m.cast.namedAdapter? name).bind (·.2.context) with
          | none => rfl
          | some id => cases query <;> rfl
      | _ => rfl
  | _ => rfl

theorem length_numbered (past : List Moment) : (numbered past).length = (issuedFor .frame (allotted past)).length := by
  rw [numbered_allotted, List.length_map]

theorem Run.numbered_all (run : Run config hooks past m) (few : (numbered past).length < UInt32.size) :
    numbered past = (List.range' 1 (m.hub.handles.last .frame)).map FrameSequence.mk := by
  rw [length_numbered] at few
  rw [numbered_allotted, run.allotted_all few]

theorem Run.numbered_ascending (run : Run config hooks past m) (few : (numbered past).length < UInt32.size) :
    (numbered past).Pairwise fun a b => a.val < b.val := by
  rw [run.numbered_all few, List.pairwise_map]
  exact List.pairwise_lt_range'

theorem Run.numbered_once (run : Run config hooks past m) (few : (numbered past).length < UInt32.size) : (numbered past).Nodup :=
  (run.numbered_ascending few).imp fun less same => Nat.ne_of_lt less (congrArg FrameSequence.val same)

structure Borne (mark : Job → Option FrameSequence) : Prop where
  fresh : ∀ config u agenda, Fresh config u agenda → ∀ j ∈ agenda, mark j = none
  panic : mark .panic = none
  caught : ∀ d, mark (.participant (.delivered d)) = none ∧ ∀ j ∈ ParticipantJob.afterPanic d, mark j = none
  only : ∀ {job j : Job}, job.leads j = true → mark j ≠ none → (job matches .hub (.forward ..)) = true
  one : ∀ (m : Machine) t c data device first others s, weight (fun j => if mark j = some s then 1 else 0)
    (Job.exec m t (.hub (.forward c data device first others))).2 = if m.hub.handles.nextFrame = s then 1 else 0
  last : ∀ c data device first others, mark (.hub (.forward c data device first others)) = none

theorem borne_ships : Borne Job.ships where
  fresh _ _ _ fresh := fresh.all (fun _ => rfl) rfl (fun _ => rfl) (fun _ _ => rfl) rfl fun _ => rfl
  panic := rfl
  caught d := ⟨rfl, by simp [ParticipantJob.afterPanic, Job.ships]⟩
  only {job j} leads mark := by
    cases j with
    | participant j =>
        cases j with
        | call _ _ call =>
            cases call with
            | send => exact leads
            | _ => exact absurd rfl mark
        | _ => exact absurd rfl mark
    | _ => exact absurd rfl mark
  one m t c data device first others s := by
    simp [Job.exec, HubJob.exec, weight, Job.ships, Job.logHub, Job.call]
  last _ _ _ _ _ := rfl

theorem borne_settles : Borne Job.settles where
  fresh _ _ _ fresh := fresh.all (fun _ => rfl) rfl (fun _ => rfl) (fun _ _ => rfl) rfl fun _ => rfl
  panic := rfl
  caught d := ⟨rfl, by simp [ParticipantJob.afterPanic, Job.settles]⟩
  only {job j} leads mark := by
    cases j with
    | hub j =>
        cases j with
        | sent => exact leads
        | _ => exact absurd rfl mark
    | _ => exact absurd rfl mark
  one m t c data device first others s := by
    simp [Job.exec, HubJob.exec, weight, Job.settles, Job.logHub, Job.call]
  last _ _ _ _ _ := rfl

def bearing (mark : Job → Option FrameSequence) (s : FrameSequence) (job : Job) : Nat := if mark job = some s then 1 else 0

theorem bearing_none (none : mark job = none) : bearing mark s job = 0 := if_neg (by simp [none])

theorem total_count (f : Moment → Option FrameSequence) :
    total (fun x => if f x = some s then 1 else 0) past = (past.filterMap f).count s := by
  induction past with
  | nil => rfl
  | cons x rest ih =>
      simp only [total, List.map_cons, List.sum_cons, List.filterMap_cons] at ih ⊢
      rw [ih]
      cases here : f x with
      | none => simp
      | some n =>
          by_cases same : n = s
          · simp [same, Nat.add_comm]
          · simp [same]

theorem Borne.inner (borne : Borne mark) (s : FrameSequence) : Inner (bearing mark s) where
  fresh config u agenda fresh := weight_zero fun j member => bearing_none (borne.fresh config u agenda fresh j member)
  panic := bearing_none borne.panic
  caught d := by rw [bearing_none (borne.caught d).1, weight_zero fun j member => bearing_none ((borne.caught d).2 j member)]

theorem Borne.source {job j : Job} (borne : Borne mark) (leads : job.leads j = true) (bears : mark j ≠ none) :
    ∃ c data device first others, job = .hub (.forward c data device first others) := by
  have only := borne.only leads bears
  cases job with
  | hub job =>
      cases job with
      | forward c data device first others => exact ⟨c, data, device, first, others, rfl⟩
      | _ => cases only
  | _ => cases only

theorem Borne.next (borne : Borne mark) (s : FrameSequence) (m : Machine) (t : ThreadId) (job : Job) :
    weight (bearing mark s) (job.exec m t).2 = if job.numbers m = some s then 1 else 0 := by
  by_cases forwards : ∃ c data device first others, job = .hub (.forward c data device first others)
  · obtain ⟨c, data, device, first, others, rfl⟩ := forwards
    refine (borne.one m t c data device first others s).trans ?_
    simp [Job.numbers]
  · have source : ∀ {job j : Job}, job.leads j = true → bearing mark s j ≠ 0 →
        ∃ c data device first others, job = .hub (.forward c data device first others) :=
      fun leads bears => borne.source leads fun none => bears (bearing_none none)
    rw [weight_next_apart source m t job forwards, if_neg]
    intro numbers
    unfold Job.numbers at numbers
    split at numbers
    · exact forwards ⟨_, _, _, _, _, rfl⟩
    · cases numbers

theorem Borne.ledger (borne : Borne mark) (run : Run config hooks past m) (s : FrameSequence) : (numbered past).count s =
    (marked mark past).count s + m.load (bearing mark s) + total (lost (bearing mark s)) past := by
  have law := run.ledger (a := fun x => if x.job.numbers x.machine = some s then 1 else 0) (b := fun x => bearing mark s x.job)
    (q := fun _ => 0) (r := fun _ => 0) (borne.inner s) rfl (fun _ => ⟨rfl, rfl⟩)
    (fun _ _ _ => ⟨rfl, bearing_none borne.panic⟩)
    (fun {_ m t job _} _ _ _ _ => by
      have next := borne.next s m t job
      simp only
      omega)
  have numbers : total _ past = (numbered past).count s := total_count fun x => x.job.numbers x.machine
  have marks : total _ past = (marked mark past).count s := total_count fun x => mark x.job
  simp only [numbered, marked, bearing] at law numbers marks ⊢
  omega

theorem Borne.once (borne : Borne mark) (run : Run config hooks past m) (few : (numbered past).length < UInt32.size) :
    (marked mark past).Nodup := by
  refine List.nodup_iff_count_le_one.mpr fun s => ?_
  have once := List.nodup_iff_count_le_one.mp (run.numbered_once few) s
  have law := borne.ledger run s
  omega

theorem Borne.older (borne : Borne mark) (run : Run config hooks past m) (member : s ∈ marked mark past) : s ∈ numbered past := by
  have some := List.count_pos_iff.mpr member
  have law := borne.ledger run s
  exact List.count_pos_iff.mp (by omega)

end TransportHub

import TransportHub.Proofs.Panic
import TransportHub.Proofs.Sending
/-!
Allotment: what the counters of a hub give out, whoever draws on them, and what becomes of it. Whoever asks for a
handle is answered with its number; a frame takes its number along to an adapter, unless a panic out of a log hook
comes in between.
-/

set_option autoImplicit false

namespace TransportHub

variable {config : Config} {hooks : List Hook} {past : List Moment} {m m' : Machine} {t : ThreadId} {job : Job} {later : List Job}
  {x : Moment} {op : Op} {kind : HandleKind} {s : FrameSequence}

def HandleKind.reply (n : Nat) : HandleKind → Reply
  | device => .deviceHandle ⟨n⟩
  | connection => .connectionHandle ⟨n⟩
  | frame => .sent (.ok ⟨n⟩)

theorem draws_answer (drawn : (Job.perform op).draws m = some kind) :
    (m.perform op).2 = [.answer (kind.reply (m.hub.handles.next kind))] := by
  cases op with
  | nextDevice | nextConnection =>
      simp only [Job.draws] at drawn
      split at drawn
      · rename_i owned
        cases drawn
        simp only [Machine.perform, owned, if_true]
        rfl
      · cases drawn
  | context name query =>
      simp only [Job.draws] at drawn
      simp only [Machine.perform]
      cases known : (m.cast.namedAdapter? name).bind (·.2.context) with
      | none => simp [known] at drawn
      | some id =>
          rw [known] at drawn
          cases query <;> cases drawn <;> rfl
  | _ => cases drawn

-- A frame that has got its number is not dropped on its way to the adapter unless a panic comes out of a log hook.
def Fence.frames : Fence := { Fence.queues with pinned := fun job => job.ships.isSome }

theorem frames_open : Fence.frames.Open :=
  ⟨⟨rfl, rfl, rfl⟩, fun _ => rfl, fun _ => rfl, ⟨rfl, rfl⟩, fun _ => ⟨rfl, rfl⟩, fun _ => rfl⟩

theorem frames_guarded (m : Machine) (t : ThreadId) (job : Job) : Each Fence.frames.Guards (job.exec m t).2 := by
  by_cases forwards : ∃ c data device first others, job = .hub (.forward c data device first others)
  · obtain ⟨_, _, _, _, _, rfl⟩ := forwards
    exact Fence.each_checked rfl
  · refine Fence.each_exposed fun j member => ?_
    cases ships : j.ships with
    | none => simp [Fence.frames, ships]
    | some s => exact absurd (borne_ships.source (leads_exec m t job j member) (by simp [ships])) forwards

theorem frames_sound : Fence.frames.Sound := by
  refine smooth_sound frames_open rfl (fun config u agenda fresh => ?_) fun m t job _ => frames_guarded m t job
  refine Fence.each_exposed fun j member => ?_
  simp only [Fence.frames, borne_ships.fresh config u agenda fresh j member, Option.isSome_none]

theorem Run.frames_kept (run : Run config hooks past m) (member : x ∈ past) (hooked : x.hookSafe) (s : FrameSequence) :
    lost (bearing Job.ships s) x = 0 := by
  obtain ⟨earlier, _, reached, agenda⟩ := run.reached member
  obtain ⟨m, t, job, later⟩ := x
  refine weight_zero fun j dropped => bearing_none ?_
  cases job with
  | panic =>
      have loose := frames_sound.dropped reached agenda (unmarked_cut hooked) j dropped
      simpa [Fence.frames] using loose
  | _ => cases dropped

-- Each counter gives out 1, 2, 3 and so on to whoever draws on it, and nothing else moves it. A frame is handed to an
-- adapter with its own number, once; a number that no adapter is handed is of a frame under way, or one that a panic
-- out of a log hook has cut off.
structure HandlesTold (past : List Moment) (m : Machine) : Prop where
  counted : ∀ kind, (issuedFor kind (allotted past)).length < UInt32.size →
    issuedFor kind (allotted past) = List.range' 1 (m.hub.handles.last kind)
  moved : ∀ x ∈ past, ∀ next, x.machine.step? x.thread = some next → ∀ kind, next.hub.handles.last kind =
    if x.job.draws x.machine = some kind then x.machine.hub.handles.next kind else x.machine.hub.handles.last kind
  answered : ∀ x ∈ past, ∀ next op kind, x.machine.step? x.thread = some next → x.job = .perform op →
    x.job.draws x.machine = some kind → next.agenda x.thread = .answer (kind.reply (x.machine.hub.handles.next kind)) :: x.later
  frames : numbered past = (issuedFor .frame (allotted past)).map FrameSequence.mk
  handed : ((numbered past).length < UInt32.size → (marked Job.ships past).Nodup) ∧ ∀ s ∈ marked Job.ships past, s ∈ numbered past
  accounted : ∀ s, (numbered past).count s =
    (marked Job.ships past).count s + m.load (bearing Job.ships s) + total (lost (bearing Job.ships s)) past
  kept : ∀ x ∈ past, x.hookSafe → ∀ s, lost (bearing Job.ships s) x = 0

theorem handles_told (run : Run config hooks past m) : HandlesTold past m where
  counted _ few := run.allotted_all few
  moved x member next went kind := by
    obtain ⟨_, _, _, agenda⟩ := run.reached member
    rcases step_cases agenda went with ⟨panics, rfl⟩ | ⟨_, _, rfl⟩
    · rw [handles_unwind, panics]
      rfl
    · rw [hub_carry, handles_exec]
      cases x.job.draws x.machine with
      | none => rfl
      | some other =>
          by_cases same : kind = other
          · subst same
            simp
          · simp [same, Ne.symm same]
  answered x member next op kind went performs drawn := by
    obtain ⟨_, _, _, agenda⟩ := run.reached member
    rcases step_cases agenda went with ⟨panics, _⟩ | ⟨_, _, rfl⟩
    · rw [performs] at panics
      cases panics
    · rw [performs] at agenda drawn ⊢
      rw [agenda_carry_self agenda]
      exact congrArg (· ++ x.later) (draws_answer drawn)
  frames := numbered_allotted past
  handed := ⟨fun few => borne_ships.once run few, fun _ => borne_ships.older run⟩
  accounted := borne_ships.ledger run
  kept _ member hooked := run.frames_kept member hooked

-- The context of an adapter draws on the counters like the hub, also when the adapter has been removed and the hub given up.
def handlesSession : List Moment × Machine :=
  solo hastyConfig [] [.context "a" .nextConnection, .nextDevice, .context "a" .nextDevice, .drop, .send ⟨4⟩ [8],
    .context "a" .nextDevice, .removeAdapter ⟨1⟩, .send ⟨4⟩ [7], .nextConnection, .context "a" .nextDevice, .nextDevice,
    .report ⟨1⟩ (.connected { handle := ⟨1⟩, deviceType := "t" } ⟨4⟩), .registry (.replace ⟨1⟩ [phone 1]), .run,
    .addAdapter (.fresh { name := "a", deviceType := "t" })]

theorem handles_of_one : HandlesTold handlesSession.1 handlesSession.2 ∧
    allotted handlesSession.1 = [(.device, 1), (.device, 2), (.connection, 1), (.frame, 1), (.device, 3), (.device, 4),
      (.connection, 2)] ∧
    marked Job.ships handlesSession.1 = [⟨1⟩] ∧ handlesSession.2.hub.owned = false ∧ handlesSession.2.hub.registry.ids = [] := by
  refine ⟨handles_told (solo_run _ _ _), ?_⟩
  decide +kernel

-- A panic comes out of a hook at the record of the first frame: its number is used up, and the only frame that
-- reaches the adapter is the second.
def skippedNumber : List Moment × Machine :=
  act (.send ⟨4⟩ [8]) (rounds [(12, 0)]) (act (.send ⟨4⟩ [7]) (rounds [(7, 0)]) (linkedSession [hookAtFrame] [{ name := "a" }]))

theorem number_skipped : Run quietConfig [hookAtFrame] skippedNumber.1 skippedNumber.2 ∧
    (skippedNumber.2.agenda .caller).isEmpty = true ∧ allotted skippedNumber.1 = [(.frame, 1), (.frame, 2)] ∧
    marked Job.ships skippedNumber.1 = [⟨2⟩] ∧ marked Job.settles skippedNumber.1 = [⟨2⟩] := by
  refine ⟨act_run (act_run (linkedSession_run _ _) _ _) _ _, ?_⟩
  decide +kernel

end TransportHub

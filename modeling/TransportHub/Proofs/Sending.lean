import TransportHub.Proofs.Calls
import TransportHub.Proofs.Numbering
import TransportHub.Proofs.Players
/-!
Sending: how a frame finds its adapter. A send looks up the device of its connection, then whoever lists that device,
gives the frame a number and hands it to one of them, whose answer it returns.
-/

set_option autoImplicit false

namespace TransportHub

variable {config : Config} {hooks : List Hook} {past more own : List Moment} {start m m' : Machine} {t : ThreadId} {job : Job}
  {later left rest : List Job} {r : Reply} {x asks looks searches picks hands : Moment} {c : ConnectionHandle} {data : Payload}
  {device : DeviceInfo} {owner : AdapterId × AdapterKey} {s : FrameSequence} {result : Except Error Unit}

def AdapterSpec.verdict (spec : AdapterSpec Op) : Except Error Unit :=
  if spec.minimal then .error .unsupported
  else match spec.answer with
    | .refuse error => .error error
    | _ => .ok ()

inductive Preferred (cast : Cast) (deviceType : String) (owners : List (AdapterId × AdapterKey))
    (owner : AdapterId × AdapterKey) : Prop where
  | matching (before after : List (AdapterId × AdapterKey)) (split : owners = before ++ owner :: after)
      (agrees : cast.deviceType owner.2 = deviceType) (others : ∀ o ∈ before, cast.deviceType o.2 ≠ deviceType)
  | first (after : List (AdapterId × AdapterKey)) (split : owners = owner :: after)
      (none : ∀ o ∈ owners, cast.deviceType o.2 ≠ deviceType)

theorem preferred (cast : Cast) (deviceType : String) (first : AdapterId × AdapterKey) (others : List (AdapterId × AdapterKey)) :
    Preferred cast deviceType (first :: others) (HubJob.preferred cast deviceType first others) := by
  unfold HubJob.preferred
  cases found : (first :: others).find? fun owner => cast.deviceType owner.2 = deviceType with
  | none => exact .first others rfl (by simpa using List.find?_eq_none.mp found)
  | some owner =>
      obtain ⟨agrees, before, after, split, others⟩ := List.find?_eq_some_iff_append.mp found
      exact .matching before after split (by simpa using agrees) (by simpa using others)

-- The turns in which a send looks up the device, then its owners, and picks one of them for the frame.
structure Picked (c : ConnectionHandle) (data : Payload) (asks looks searches picks : Moment) (device : DeviceInfo)
    (owner : AdapterId × AdapterKey) : Prop where
  asked : asks.job = .hub (.send c data)
  admitted : asks.machine.hub.terminating = false
  looked : looks.job = .hub (.findDevice c data)
  linked : looks.machine.hub.connections.get? c = some device
  searched : searches.job = .hub (.findOwners c data device)
  picked : ∃ first others, picks.job = .hub (.forward c data device first others)
  preferred : Preferred picks.machine.cast device.deviceType (searches.machine.hub.registry.owners device.handle) owner

-- What a send has come to when it answers, with all the turns it took.
inductive SendOutcome (c : ConnectionHandle) (data : Payload) : Reply → List Moment → Prop where
  | ending {asks answers : Moment} (asked : asks.job = .hub (.send c data)) (terminating : asks.machine.hub.terminating = true)
      (answered : answers.job = .answer (.sent (.error .shuttingDown))) :
      SendOutcome c data (.sent (.error .shuttingDown)) [asks, answers]
  | unlinked {asks looks answers : Moment} (asked : asks.job = .hub (.send c data)) (admitted : asks.machine.hub.terminating = false)
      (looked : looks.job = .hub (.findDevice c data)) (unknown : looks.machine.hub.connections.get? c = none)
      (answered : answers.job = .answer (.sent (.error (.unknownConnection c)))) :
      SendOutcome c data (.sent (.error (.unknownConnection c))) [asks, looks, answers]
  | unowned {asks looks searches answers : Moment} {device : DeviceInfo} (asked : asks.job = .hub (.send c data))
      (admitted : asks.machine.hub.terminating = false) (looked : looks.job = .hub (.findDevice c data))
      (linked : looks.machine.hub.connections.get? c = some device) (searched : searches.job = .hub (.findOwners c data device))
      (none : searches.machine.hub.registry.owners device.handle = [])
      (answered : answers.job = .answer (.sent
        (.error (.sendFailed s!"device {device.handle} is no longer listed by any adapter")))) :
      SendOutcome c data (.sent (.error (.sendFailed s!"device {device.handle} is no longer listed by any adapter")))
        [asks, looks, searches, answers]
  | handed {asks looks searches picks hands settles answers : Moment} {front back : List Moment} {device : DeviceInfo}
      {owner : AdapterId × AdapterKey} {a : Adapter} (picked : Picked c data asks looks searches picks device owner)
      (handing : hands.job = Job.call owner.1 owner.2 (.send c picks.machine.hub.handles.nextFrame data))
      (known : hands.machine.cast.adapter? owner.2 = some a)
      (settled : settles.job = .hub (.sent picks.machine.hub.handles.nextFrame))
      (answered : answers.job = .answer (.sent (a.spec.verdict.map fun _ => picks.machine.hub.handles.nextFrame))) :
      SendOutcome c data (.sent (a.spec.verdict.map fun _ => picks.machine.hub.handles.nextFrame))
        (asks :: looks :: searches :: picks :: front ++ hands :: back ++ [settles, answers])

def Picks (c : ConnectionHandle) (data : Payload) (own : List Moment) (owner : AdapterId × AdapterKey) (s : FrameSequence) : Prop :=
  ∃ asks looks searches picks device after, own = asks :: looks :: searches :: picks :: after ∧
    Picked c data asks looks searches picks device owner ∧ s = picks.machine.hub.handles.nextFrame

def Hands (c : ConnectionHandle) (data : Payload) (own : List Moment) (owner : AdapterId × AdapterKey) (s : FrameSequence)
    (result : Except Error Unit) : Prop :=
  ∃ front hands back a, own = front ++ hands :: back ∧ Picks c data front owner s ∧ hands.job = Job.call owner.1 owner.2
    (.send c s data) ∧
    hands.machine.cast.adapter? owner.2 = some a ∧ result = a.spec.verdict

theorem Picks.snoc (picks : Picks c data own owner s) (x : Moment) : Picks c data (own ++ [x]) owner s := by
  obtain ⟨asks, looks, searches, picks, device, after, rfl, picked, number⟩ := picks
  exact ⟨asks, looks, searches, picks, device, after ++ [x], rfl, picked, number⟩

theorem Hands.snoc (hands : Hands c data own owner s result) (x : Moment) : Hands c data (own ++ [x]) owner s result := by
  obtain ⟨front, hands, back, a, rfl, rest⟩ := hands
  exact ⟨front, hands, back ++ [x], a, by rw [List.append_assoc]; rfl, rest⟩

theorem Hands.outcome (handed : Hands c data own owner s result) {settles answers : Moment} (settled : settles.job = .hub (.sent s))
    (answered : answers.job = .answer (.sent (result.map fun _ => s))) :
    SendOutcome c data (.sent (result.map fun _ => s)) (own ++ [settles] ++ [answers]) := by
  obtain ⟨front, hands, back, a, rfl, ⟨asks, looks, searches, picks, device, after, rfl, picked, rfl⟩, handing, known, rfl⟩ := handed
  have outcome : SendOutcome c data _ (asks :: looks :: searches :: picks :: after ++ hands :: back ++ [settles, answers]) :=
    .handed picked handing known settled answered
  simpa only [List.append_assoc, List.cons_append, List.nil_append] using outcome

inductive Sending (c : ConnectionHandle) (data : Payload) : Reply → List Moment → List Job → Prop where
  | asks {r : Reply} : Sending c data r [] [.hub (.send c data)]
  | looks {r : Reply} {asks : Moment} (asked : asks.job = .hub (.send c data)) (admitted : asks.machine.hub.terminating = false) :
      Sending c data r [asks] [.hub (.findDevice c data)]
  | searches {r : Reply} {asks looks : Moment} {device : DeviceInfo} (asked : asks.job = .hub (.send c data))
      (admitted : asks.machine.hub.terminating = false) (looked : looks.job = .hub (.findDevice c data))
      (linked : looks.machine.hub.connections.get? c = some device) :
      Sending c data r [asks, looks] [.hub (.findOwners c data device)]
  | picks {r : Reply} {asks looks searches : Moment} {device : DeviceInfo} {first : AdapterId × AdapterKey}
      {others : List (AdapterId × AdapterKey)} (asked : asks.job = .hub (.send c data))
      (admitted : asks.machine.hub.terminating = false) (looked : looks.job = .hub (.findDevice c data))
      (linked : looks.machine.hub.connections.get? c = some device) (searched : searches.job = .hub (.findOwners c data device))
      (listed : searches.machine.hub.registry.owners device.handle = first :: others) :
      Sending c data r [asks, looks, searches] [.hub (.forward c data device first others)]
  | hands {r : Reply} {own : List Moment} {owner : AdapterId × AdapterKey} {s : FrameSequence} (front : List Job)
      (picked : Picks c data own owner s) :
      Sending c data r own (front ++ [Job.call owner.1 owner.2 (.send c s data), .hub (.sent s)])
  | takes {r : Reply} {own : List Moment} {owner : AdapterId × AdapterKey} {s : FrameSequence} {result : Except Error Unit}
      (front : List Job) (handed : Hands c data own owner s result) :
      Sending c data r own (front ++ [.answer (.done result), .participant (.returned owner.1 (.send c s data)), .hub (.sent s)])
  | returns {own : List Moment} {owner : AdapterId × AdapterKey} {s : FrameSequence} {result : Except Error Unit}
      (handed : Hands c data own owner s result) :
      Sending c data (.done result) own [.participant (.returned owner.1 (.send c s data)), .hub (.sent s)]
  | settles {own : List Moment} {owner : AdapterId × AdapterKey} {s : FrameSequence} {result : Except Error Unit}
      (handed : Hands c data own owner s result) : Sending c data (.done result) own [.hub (.sent s)]
  | answers {r reply : Reply} {own : List Moment}
      (outcome : ∀ x : Moment, x.job = .answer reply → SendOutcome c data reply (own ++ [x])) :
      Sending c data r own [.answer reply]
  | finished {r : Reply} {own : List Moment} (outcome : SendOutcome c data r own) : Sending c data r own []

theorem send_next (t : ThreadId) (c : ConnectionHandle) (data : Payload) (s : FrameSequence) (id : AdapterId) {k : AdapterKey}
    {a : Adapter} (known : m.cast.adapter? k = some a) :
    ∃ front, ((Job.call id k (.send c s data)).exec m t).2 =
      front ++ [.answer (.done a.spec.verdict), .participant (.returned id (.send c s data))] := by
  have same : (m.note t (.asked k id (.send c s data))).cast.adapter? k = some a := known
  simp only [Job.call, Job.exec, ParticipantJob.exec, same, ParticipantJob.callAdapter, ParticipantJob.minimalAnswer?,
    AdapterSpec.verdict]
  cases minimal : a.spec.minimal with
  | true => exact ⟨[], rfl⟩
  | false =>
      simp only [Option.filter, Bool.false_eq_true, if_false, ParticipantJob.conclude, ParticipantJob.keepContext, Adapter.meet]
      generalize (Rule.opsFor _ _ _).flatMap Job.nested = script
      cases a.spec.answer with
      | accept | refuse error => exact ⟨script, by simp⟩
      | complete status => exact ⟨script ++ [.participant (.complete k c s status)], by simp⟩

theorem answer_error (result : Except Error Unit) (s : FrameSequence) :
    (Reply.done result).error?.elim (Except.ok s) Except.error = result.map fun _ => s := by
  cases result <;> rfl

theorem Sending.turn (sending : Sending c data (m.reply t) own (job :: rest)) (agenda : m.agenda t = job :: (rest ++ later))
    (known : ∀ id k call, job = .participant (.call id k call) → ∃ a, m.cast.adapter? k = some a) :
    Sending c data ((m.carry t job (rest ++ later)).reply t) (own ++ [⟨m, t, job, rest ++ later⟩]) ((job.exec m t).2 ++ rest) := by
  have quiet : (∀ reply, job ≠ .answer reply) → (m.carry t job (rest ++ later)).reply t = m.reply t := fun silent =>
    reply_carry (known_lt (agenda_known agenda (List.cons_ne_nil _ _))) (.inr silent)
  generalize split : job :: rest = left at sending
  generalize held : m.reply t = r at sending
  cases sending with
  | asks =>
      cases split
      rw [List.append_nil]
      cases terminating : m.hub.terminating with
      | true =>
          simp only [Job.exec, HubJob.exec, terminating, if_true, HubJob.refuseSend]
          exact .answers fun x answered => .ending rfl terminating answered
      | false =>
          simp only [Job.exec, HubJob.exec, terminating, Bool.false_eq_true, if_false]
          exact .looks rfl terminating
  | looks asked admitted =>
      cases split
      rw [List.append_nil]
      cases linked : m.hub.connections.get? c with
      | none =>
          simp only [Job.exec, HubJob.exec, linked, HubJob.refuseSend]
          exact .answers fun x answered => .unlinked asked admitted rfl linked answered
      | some device =>
          simp only [Job.exec, HubJob.exec, linked]
          exact .searches asked admitted rfl linked
  | searches asked admitted looked linked =>
      rename_i device
      cases split
      rw [List.append_nil]
      cases listed : m.hub.registry.owners device.handle with
      | nil =>
          simp only [Job.exec, HubJob.exec, listed, HubJob.refuseSend]
          exact .answers fun x answered => .unowned asked admitted looked linked rfl listed answered
      | cons first others =>
          simp only [Job.exec, HubJob.exec, listed]
          exact .picks asked admitted looked linked rfl listed
  | picks asked admitted looked linked searched listed =>
      rename_i device first others
      cases split
      rw [List.append_nil]
      refine Sending.hands [_] ⟨_, _, _, _, device, [], rfl,
        ⟨asked, admitted, looked, linked, searched, ⟨first, others, rfl⟩, ?_⟩, rfl⟩
      rw [listed]
      exact preferred m.cast device.deviceType first others
  | hands front picked =>
      rename_i owner s
      cases front with
      | nil =>
          cases split
          obtain ⟨a, adapter⟩ := known _ _ _ rfl
          obtain ⟨front, next⟩ := send_next t c data s owner.1 adapter
          rw [next, List.append_assoc]
          exact .takes front ⟨own, _, [], a, rfl, picked, rfl, adapter, rfl⟩
      | cons j front =>
          rw [List.cons_append, List.cons.injEq] at split
          obtain ⟨rfl, rfl⟩ := split
          rw [← List.append_assoc]
          exact .hands _ (picked.snoc _)
  | takes front handed =>
      rename_i result
      cases front with
      | nil =>
          cases split
          rw [reply_answer agenda]
          exact .returns (handed.snoc _)
      | cons j front =>
          rw [List.cons_append, List.cons.injEq] at split
          obtain ⟨rfl, rfl⟩ := split
          rw [← List.append_assoc]
          exact .takes _ (handed.snoc _)
  | returns handed =>
      cases split
      rw [quiet fun _ none => (by cases none), held]
      exact .settles (handed.snoc _)
  | settles handed =>
      cases split
      simp only [Job.exec, HubJob.exec, held, answer_error]
      exact .answers fun x answered => handed.outcome rfl answered
  | answers outcome =>
      cases split
      rw [reply_answer agenda]
      exact .finished (outcome _ rfl)
  | finished => cases split

theorem Calling.sending (calling : Calling t later m [.hub (.send c data)] more m' left) (run : Run config hooks past m) :
    Sending c data (m'.reply t) (ownTurns t more) left := by
  refine calling.stages (G := fun x => ∀ id k call, x.job = .participant (.call id k call) → ∃ a, x.machine.cast.adapter? k = some a)
    .asks (fun sending _ _ agenda known => sending.turn agenda known) fun x member id k call calls => ?_
  obtain ⟨_, _, reached, agenda⟩ := (calling.run run).reached (List.mem_append_right _ (mem_ownTurns.mp member).1)
  exact reached.called_known (calls ▸ agenda)

-- A send that has not come to its end can go on as soon as the registry is free, unless it is within something that is hooked
-- onto the record of its frame, or within the adapter that was handed the frame.
inductive SendUnderway (c : ConnectionHandle) (data : Payload) (m : Machine) (t : ThreadId) (own : List Moment) :
    List Job → Prop where
  | goes {job : Job} {rest : List Job} (quiet : job ≠ .panic) (enabled : m.free .registry = true → job.enabled m t = true) :
      SendUnderway c data m t own (job :: rest)
  | record {owner : AdapterId × AdapterKey} {s : FrameSequence} {front : List Job} (picked : Picks c data own owner s)
      (hooked : front ≠ []) : SendUnderway c data m t own (front ++ [Job.call owner.1 owner.2 (.send c s data), .hub (.sent s)])
  | adapter {owner : AdapterId × AdapterKey} {s : FrameSequence} {result : Except Error Unit} {front : List Job}
      (handed : Hands c data own owner s result) (busy : front ≠ []) : SendUnderway c data m t own
        (front ++ [.answer (.done result), .participant (.returned owner.1 (.send c s data)), .hub (.sent s)])

theorem Sending.outcome (sending : Sending c data r own left) (finished : left = []) : SendOutcome c data r own := by
  cases sending with
  | finished outcome => exact outcome
  | hands | takes => simp at finished
  | _ => cases finished

theorem Sending.underway (sending : Sending c data r own left) (unfinished : left ≠ []) : SendUnderway c data m t own left := by
  cases sending with
  | asks | looks | picks | returns | settles | answers => exact .goes (fun none => by cases none) fun _ => rfl
  | searches =>
      refine .goes (fun none => by cases none) fun free => ?_
      simp [Job.enabled, Job.needs, free]
  | hands front picked =>
      cases front with
      | nil => exact .goes (fun none => by cases none) fun _ => rfl
      | cons => exact .record picked (List.cons_ne_nil _ _)
  | takes front handed =>
      cases front with
      | nil => exact .goes (fun none => by cases none) fun _ => rfl
      | cons => exact .adapter handed (List.cons_ne_nil _ _)
  | finished => exact absurd rfl unfinished

theorem Picks.late (picked : Picks c data own owner s) : 3 < own.length := by
  obtain ⟨_, _, _, _, _, _, rfl, _⟩ := picked
  simp

theorem Hands.late (handed : Hands c data own owner s result) : 3 < own.length := by
  obtain ⟨_, _, _, _, rfl, picked, _⟩ := handed
  have late := picked.late
  rw [List.length_append]
  omega

theorem Sending.still (sending : Sending c data r own (job :: rest)) (early : own.length < 3) (m : Machine) (t : ThreadId) :
    (job.exec m t).1.hub = m.hub ∧ (job.exec m t).1.cast = m.cast := by
  generalize split : job :: rest = left at sending
  cases sending with
  | asks | looks | searches | answers =>
      cases split
      exact ⟨rfl, rfl⟩
  | picks => exact absurd early (Nat.lt_irrefl 3)
  | hands front picked => exact absurd (Nat.lt_trans picked.late early) (Nat.lt_irrefl 3)
  | takes _ handed | returns handed | settles handed => exact absurd (Nat.lt_trans handed.late early) (Nat.lt_irrefl 3)
  | finished => cases split

theorem Calling.send_early (calling : Calling t later m [.hub (.send c data)] more m' left) (run : Run config hooks past m)
    (alone : ∀ x ∈ more, x.thread = t) : ∀ front x back, more = front ++ x :: back → front.length ≤ 3 →
      x.machine.hub = m.hub ∧ x.machine.cast = m.cast := by
  intro front x back split early
  have before : ∀ y ∈ front, y.thread = t := fun y member => alone y (split ▸ List.mem_append_left _ member)
  obtain ⟨rest, reached⟩ := calling.reached front x back split (alone x (split ▸ List.mem_append_right _ (List.mem_cons_self ..)))
  refine Prod.ext_iff.mp (reached.alone (f := fun hub cast => (hub, cast)) before fun y member => ?_)
  obtain ⟨first, second, rfl⟩ := List.append_of_mem member
  obtain ⟨_, here⟩ := reached.reached first y second rfl (before y member)
  have sending := here.sending run
  rw [ownTurns_alone fun z inside => before z (List.mem_append_left _ inside)] at sending
  have within : first.length < 3 := by
    simp only [List.length_append, List.length_cons] at early
    omega
  obtain ⟨hub, cast⟩ := sending.still within y.machine t
  exact Prod.ext hub cast

theorem Run.numbers_grow (run : Run config hooks past m) (few : (numbered past).length < UInt32.size)
    {mark : Job → Option FrameSequence} (borne : Borne mark) {before since : List Moment} {s s' : FrameSequence}
    (split : past = before ++ x :: since) (marked : mark x.job = some s) {y : Moment} (member : y ∈ since)
    (numbers : y.job.numbers y.machine = some s') : s.val < s'.val := by
  obtain ⟨front, back, rfl⟩ := List.append_of_mem member
  have reached : Run config hooks (before ++ x :: front) y.machine := by
    refine (run.before (x := y) ⟨back, ?_⟩).1
    rw [split]
    simp
  have given : s ∈ numbered (before ++ x :: front) := by
    refine borne.older reached (List.mem_filterMap.mpr ⟨x, ?_, marked⟩)
    exact List.mem_append_right _ (List.mem_cons_self ..)
  have ascending := run.numbered_ascending few
  have whole : numbered past = numbered (before ++ x :: front) ++ numbered (y :: back) := by
    rw [split, numbered, numbered, numbered, ← List.filterMap_append]
    simp
  rw [whole, List.pairwise_append] at ascending
  exact ascending.2.2 s given s' (List.mem_filterMap.mpr ⟨y, List.mem_cons_self .., numbers⟩)

-- Every frame that found an owner was given a number of its own, in ascending order and without a gap, and no send
-- answers with a number twice.
structure FramesNumbered (past : List Moment) (m : Machine) : Prop where
  numbers : numbered past = (List.range' 1 m.hub.handles.frame.toNat).map FrameSequence.mk
  shippedOnce : (marked Job.ships past).Nodup ∧ ∀ s ∈ marked Job.ships past, s ∈ numbered past
  settledOnce : (marked Job.settles past).Nodup ∧ ∀ s ∈ marked Job.settles past, s ∈ numbered past
  ascending : ∀ before x since s, past = before ++ x :: since → x.job.settles = some s → ∀ y ∈ since, ∀ s',
    y.job.numbers y.machine = some s' → s.val < s'.val

structure FramesSent (config : Config) (hooks : List Hook) (past : List Moment) (m : Machine) : Prop where
  answered : ∀ t later c data more m', Calling t later m [.hub (.send c data)] more m' [] →
    SendOutcome c data (m'.reply t) (ownTurns t more)
  underway : ∀ t later c data more m' left, Calling t later m [.hub (.send c data)] more m' left → left ≠ [] →
    SendUnderway c data m' t (ownTurns t more) left
  alone : ∀ t later c data more m' left, Calling t later m [.hub (.send c data)] more m' left → (∀ x ∈ more, x.thread = t) →
    ∀ front x back, more = front ++ x :: back → front.length ≤ 3 → x.machine.hub = m.hub ∧ x.machine.cast = m.cast
  counted : (numbered past).length < UInt32.size → FramesNumbered past m
  complete : (∀ u, ∀ j ∈ m.agenda u, j.settles = none) → (∀ x ∈ past, ∀ j ∈ x.dropped, j.settles = none) →
    (marked Job.settles past).Perm (numbered past)

theorem frames_sent (run : Run config hooks past m) : FramesSent config hooks past m where
  answered _ _ _ _ _ _ calling :=
    (calling.sending run).outcome rfl
  underway _ _ _ _ _ _ _ calling unfinished := (calling.sending run).underway unfinished
  alone _ _ _ _ _ _ _ calling alone := calling.send_early run alone
  counted few := {
    numbers := run.numbered_all few
    shippedOnce := ⟨borne_ships.once run few, fun _ => borne_ships.older run⟩
    settledOnce := ⟨borne_settles.once run few, fun _ => borne_settles.older run⟩
    ascending := fun _ _ _ _ split settles _ member _ numbers => run.numbers_grow few borne_settles split settles member numbers }
  complete idle whole := by
    refine List.perm_iff_count.mpr fun s => ?_
    have law := borne_settles.ledger run s
    have none : m.load (bearing Job.settles s) = 0 := load_zero fun u j member => bearing_none (idle u j member)
    have kept : total (lost (bearing Job.settles s)) past = 0 := total_zero fun x member =>
      weight_zero fun j dropped => bearing_none (whole x member j dropped)
    omega

-- Adapters of these kinds are registered, the last one first, and list the same device, on which a connection has come up.
def linkedSession (hooks : List Hook) (specs : List (AdapterSpec Op)) : List Moment × Machine :=
  act (.report ⟨1⟩ (.connected { handle := ⟨1⟩, deviceType := "t" } ⟨4⟩)) (rounds [(24, 0)])
    (solo quietConfig hooks (((List.range specs.length).map fun i => .registry (.replace ⟨i + 1⟩ [phone 1])) ++
      specs.map fun spec => .register (.fresh spec)))

theorem linkedSession_run (hooks : List Hook) (specs : List (AdapterSpec Op)) :
    Run quietConfig hooks (linkedSession hooks specs).1 (linkedSession hooks specs).2 := act_run (solo_run _ _ _) _ _

def echoingAdapter : AdapterSpec Op := { name := "b", deviceType := "t", script := [⟨.send, some 0, [.send ⟨4⟩ [8]]⟩] }

def echoedSession : List Moment × Machine :=
  act (.send ⟨4⟩ [7]) (rounds [(26, 0)]) (linkedSession [] [echoingAdapter, { name := "a" }])

theorem echoed_frames : FramesSent quietConfig [] echoedSession.1 echoedSession.2 ∧
    FramesNumbered echoedSession.1 echoedSession.2 ∧ numbered echoedSession.1 = [⟨1⟩, ⟨2⟩] ∧
    marked Job.ships echoedSession.1 = [⟨1⟩, ⟨2⟩] ∧ marked Job.settles echoedSession.1 = [⟨2⟩, ⟨1⟩] ∧
    echoedSession.2.hub.registry.owners ⟨1⟩ = [(⟨1⟩, ⟨0⟩), (⟨2⟩, ⟨1⟩)] := by
  have sent := frames_sent (act_run (linkedSession_run [] [echoingAdapter, { name := "a" }]) (.send ⟨4⟩ [7]) (rounds [(26, 0)]))
  refine ⟨sent, sent.counted (by decide +kernel), ?_⟩
  decide +kernel

-- A panic comes out of a hook at the record of a frame: the number is used up, and no adapter is handed the frame.
def hookAtFrame : Hook := { start := "[transport-manager] sending frame", ops := [.panic] }

def droppedFrame : List Moment × Machine := act (.send ⟨4⟩ [7]) (rounds [(7, 0)]) (linkedSession [hookAtFrame] [{ name := "a" }])

theorem frame_dropped : Run quietConfig [hookAtFrame] droppedFrame.1 droppedFrame.2 ∧
    (linkedSession [hookAtFrame] [{ name := "a" }]).2.hub.terminating = false ∧
    ((linkedSession [hookAtFrame] [{ name := "a" }]).2.hub.connections.get? ⟨4⟩).map (·.handle) = some ⟨1⟩ ∧
    (linkedSession [hookAtFrame] [{ name := "a" }]).2.hub.registry.owners ⟨1⟩ = [(⟨1⟩, ⟨0⟩)] ∧
    (droppedFrame.2.agenda .caller).isEmpty = true ∧ numbered droppedFrame.1 = [⟨1⟩] ∧ marked Job.ships droppedFrame.1 = [] := by
  refine ⟨act_run (linkedSession_run _ _) _ _, ?_⟩
  decide +kernel

end TransportHub

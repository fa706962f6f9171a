import TransportHub.Proofs.Calls
import TransportHub.Proofs.Panic
import TransportHub.Proofs.RegistryHistory
/-!
Routing: which adapters a scan, or a request for a device, is passed on to. A command looks at the registry once;
whatever the adapters do when they are called, and whoever else changes the registry meanwhile, it calls those that
it has found, in their order.
-/

set_option autoImplicit false

namespace TransportHub

variable {config : Config} {hooks : List Hook} {past more own turns : List Moment} {m m' : Machine} {t : ThreadId} {job : Job}
  {later left front rest : List Job} {x asks : Moment} {command : HubJob} {r : Registry}

def HubJob.commands : HubJob → Bool
  | scan | request .. => true
  | _ => false

def HubJob.callees (r : Registry) : HubJob → List (AdapterId × AdapterKey × AdapterCall)
  | scan => r.entries.map fun e => (e.id, e.adapter, .scan)
  | request q handle => (r.entries.filter (·.lists handle)).map fun e => (e.id, e.adapter, .request q handle)
  | _ => []

def Job.callee? : Job → Option (AdapterId × AdapterKey × AdapterCall)
  | .participant (.call id adapter call) => some (id, adapter, call)
  | _ => none

def Job.relays : Job → Bool
  | .log _ | .answer _ | .participant (.call ..) => true
  | _ => false

def Job.closes : Job → Bool
  | .resume | .participant (.returned ..) => true
  | _ => false

-- How many callbacks and hooks a thread is within.
def depth (agenda : List Job) : Nat := agenda.countP Job.closes

-- The calls of adapters that a thread makes itself, not from within other calls.
def Moment.calls (later : List Job) (x : Moment) : Option (AdapterId × AdapterKey × AdapterCall) :=
  if depth x.later = depth later then x.job.callee? else none

def calledItself (later : List Job) (own : List Moment) : List (AdapterId × AdapterKey × AdapterCall) := own.filterMap (·.calls later)

theorem calledItself_snoc : calledItself later (own ++ [x]) = calledItself later own ++ (x.calls later).toList := by
  rw [calledItself, List.filterMap_append]
  cases here : x.calls later <;> simp [calledItself, here]

theorem depth_relays (plain : ∀ j ∈ rest, j.relays = true) (later : List Job) : depth (rest ++ later) = depth later := by
  have none : rest.countP Job.closes = 0 := by
    refine List.countP_eq_zero.mpr fun j member closes => ?_
    have here := plain j member
    cases j with
    | participant j =>
        cases j with
        | returned => cases here
        | _ => cases closes
    | resume => cases here
    | _ => cases closes
  rw [depth, List.countP_append, none, Nat.zero_add]
  rfl

theorem command_next (commands : command.commands = true) (m : Machine) (t : ThreadId) :
    (∀ j ∈ ((Job.hub command).exec m t).2, j.relays = true) ∧
      ((Job.hub command).exec m t).2.filterMap Job.callee? = command.callees m.hub.registry := by
  cases command with
  | scan =>
      simp only [Job.exec, HubJob.exec, HubJob.callees, Registry.adapters, List.map_map]
      refine ⟨List.all_eq_true.mp ?_, ?_⟩
      · simp [Job.logHub, Job.call, Job.relays]
      · rw [List.cons_append, List.filterMap_cons_none rfl, List.filterMap_append, List.filterMap_map]
        exact (List.append_nil _).trans (congrFun List.filterMap_eq_map _)
  | request q handle =>
      have callees : (HubJob.request q handle).callees m.hub.registry =
          (m.hub.registry.owners handle).map fun o => (o.1, o.2, AdapterCall.request q handle) := by
        simp [HubJob.callees, Registry.owners]
      rw [callees]
      simp only [Job.exec, HubJob.exec]
      cases m.hub.registry.owners handle with
      | nil => exact ⟨by simp [Job.relays, Job.logHub], rfl⟩
      | cons o others =>
          refine ⟨List.all_eq_true.mp ?_, ?_⟩
          · simp [Job.logHub, Job.call, Job.relays]
          · rw [List.filterMap_append, List.filterMap_flatMap]
            exact (List.append_nil _).trans (List.map_eq_flatMap ..).symm
  | _ => cases commands

structure Relays (later : List Job) (command : HubJob) (asks : Moment) (turns : List Moment) (front rest : List Job) : Prop where
  asked : asks.job = .hub command
  called : calledItself later turns ++ rest.filterMap Job.callee? = command.callees asks.machine.hub.registry
  within : front = [] ∨ ∃ inner last, front = inner ++ [last] ∧ last.closes = true
  ashore : ∀ j ∈ front, j.crew = false
  plain : ∀ j ∈ rest, j.relays = true

inductive Relaying (later : List Job) (command : HubJob) : List Moment → List Job → Prop where
  | waits : Relaying later command [] [.hub command]
  | relays {asks : Moment} {turns : List Moment} {front rest : List Job} (relays : Relays later command asks turns front rest) :
      Relaying later command (asks :: turns) (front ++ rest)

theorem relays_next (relays : job.relays = true) (m : Machine) (t : ThreadId) :
    (job.exec m t).2 = [] ∨ ∃ inner last, (job.exec m t).2 = inner ++ [last] ∧ last.closes = true := by
  cases job with
  | log record =>
      simp only [Job.exec, Machine.log]
      split
      · exact .inr ⟨_, .resume, rfl, rfl⟩
      · exact .inl rfl
  | answer reply => exact .inl rfl
  | participant job =>
      cases job with
      | call id key call =>
          simp only [Job.exec, ParticipantJob.exec]
          split
          · exact .inr ⟨_, _, rfl, rfl⟩
          · exact .inl rfl
      | _ => cases relays
  | _ => cases relays

theorem relays_crew (relays : job.relays = true) : job.crew = false := by
  cases job with
  | participant job => cases job <;> first | rfl | cases relays
  | _ => first | rfl | cases relays

theorem ashore_next (ashore : job.crew = false) (m : Machine) (t : ThreadId) : ∀ j ∈ (job.exec m t).2, j.crew = false := by
  intro j member
  cases crew : j.crew with
  | false => rfl
  | true => exact (crew_source (leads_exec m t job j member) crew).symm.trans ashore

theorem Relays.turn (relays : Relays later command asks turns front rest) (split : job :: left = front ++ rest) (m : Machine)
    (t : ThreadId) :
    Relaying later command (asks :: turns ++ [⟨m, t, job, left ++ later⟩]) ((job.exec m t).2 ++ left) := by
  obtain ⟨asked, called, within, ashore, plain⟩ := relays
  rw [List.cons_append]
  have snoc : calledItself later (turns ++ [⟨m, t, job, left ++ later⟩]) = _ := calledItself_snoc
  rcases within with rfl | ⟨inner, last, rfl, closes⟩
  · -- The turn is the command's own.
    rw [List.nil_append] at split
    subst split
    have here := plain job (List.mem_cons_self ..)
    have behind : ∀ j ∈ left, j.relays = true := fun j member => plain j (List.mem_cons_of_mem _ member)
    refine .relays ⟨asked, ?_, relays_next here m t, ashore_next (relays_crew here) m t, behind⟩
    rw [snoc, ← called, List.append_assoc, List.filterMap_cons]
    refine congrArg _ ?_
    simp only [Moment.calls, depth_relays behind later, if_true]
    cases job.callee? <;> rfl
  · -- The turn is within a callback or a hook, or leaves it.
    cases inner with
    | nil =>
        rw [List.nil_append, List.singleton_append, List.cons.injEq] at split
        obtain ⟨rfl, rfl⟩ := split
        have none : (job.exec m t).2 = [] ∧ job.callee? = none := by
          cases job with
          | resume => exact ⟨rfl, rfl⟩
          | participant job =>
              cases job with
              | returned => exact ⟨rfl, rfl⟩
              | _ => cases closes
          | _ => cases closes
        rw [none.1]
        refine .relays ⟨asked, ?_, .inl rfl, fun _ absent => (by cases absent), plain⟩
        rw [snoc]
        simpa [Moment.calls, none.2] using called
    | cons j inner =>
        rw [List.cons_append, List.cons_append, List.cons.injEq] at split
        obtain ⟨rfl, rfl⟩ := split
        have deeper : depth (inner ++ [last] ++ rest ++ later) ≠ depth later := by
          intro same
          simp only [depth, List.countP_append, List.countP_singleton, closes, if_true] at same
          omega
        rw [← List.append_assoc]
        refine .relays ⟨asked, ?_, .inr ⟨(job.exec m t).2 ++ inner, last, (List.append_assoc ..).symm, closes⟩, ?_, plain⟩
        · rw [snoc, Moment.calls, if_neg deeper, Option.toList_none, List.append_nil]
          exact called
        · have here := ashore job (List.mem_cons_self ..)
          exact List.forall_mem_append.mpr ⟨ashore_next here m t, fun k member => ashore k (List.mem_cons_of_mem _ member)⟩

theorem Calling.relaying (commands : command.commands = true) (calling : Calling t later m [.hub command] more m' left) :
    Relaying later command (ownTurns t more) left := by
  refine calling.stages (S := fun _ => Relaying later command) (G := fun _ => True) .waits ?_ fun _ _ => trivial
  intro m own job rest relaying _ _ _ _
  generalize split : job :: rest = left at relaying
  cases relaying with
  | waits =>
      cases split
      obtain ⟨plain, callees⟩ := command_next commands m t
      have relays : Relays later command ⟨m, t, .hub command, later⟩ [] [] _ :=
        ⟨rfl, callees, .inl rfl, fun _ none => (by cases none), plain⟩
      rw [List.append_nil]
      exact .relays relays
  | relays relays => exact relays.turn split m t

-- The turns of a command that has come to its end in a session, but for the one in which it looked at the registry.
structure Commanded (session : List Moment) (later : List Job) (command : HubJob) (asks : Moment) (turns : List Moment) : Prop where
  asked : asks.job = .hub command
  called : calledItself later turns = command.callees asks.machine.hub.registry
  ordered : (issued session).length < UInt32.size → (calledItself later turns).Pairwise fun a b => a.1.val < b.1.val
  unlisted : ∀ q handle, command = .request q handle →
    (calledItself later turns = [] ↔ ∀ info ∈ asks.machine.hub.registry.aggregate, info.handle ≠ handle)

-- A command that has not come to its end can go on as soon as the registry is free, unless it is within something
-- that is hooked onto a record of its own, or within an adapter that it has called.
inductive CommandUnderway (later : List Job) (command : HubJob) (m : Machine) (t : ThreadId) : List Moment → List Job → Prop where
  | waits (enabled : m.free .registry = true → (Job.hub command).enabled m t = true) :
      CommandUnderway later command m t [] [.hub command]
  | goes {asks : Moment} {turns : List Moment} {job : Job} {rest : List Job} (asked : asks.job = .hub command)
      (called : calledItself later turns ++ (job :: rest).filterMap Job.callee? = command.callees asks.machine.hub.registry)
      (quiet : job ≠ .panic) (enabled : job.enabled m t = true) : CommandUnderway later command m t (asks :: turns) (job :: rest)
  | within {asks : Moment} {turns : List Moment} {inner rest : List Job} {last : Job} (asked : asks.job = .hub command)
      (called : calledItself later turns ++ rest.filterMap Job.callee? = command.callees asks.machine.hub.registry)
      (closes : last.closes = true) : CommandUnderway later command m t (asks :: turns) (inner ++ [last] ++ rest)

theorem callees_ordered (ascending : r.ids.Pairwise fun a b => a.val < b.val) (command : HubJob) :
    (command.callees r).Pairwise fun a b => a.1.val < b.1.val := by
  have entries : r.entries.Pairwise fun a b => a.id.val < b.id.val := by simpa [Registry.ids, List.pairwise_map] using ascending
  cases command with
  | scan => exact List.pairwise_map.mpr entries
  | request q handle => exact List.pairwise_map.mpr (entries.filter _)
  | _ => exact .nil

theorem callees_nil (r : Registry) (q : Request) (handle : DeviceHandle) :
    (HubJob.request q handle).callees r = [] ↔ ∀ info ∈ r.aggregate, info.handle ≠ handle := by
  have same : (HubJob.request q handle).callees r = [] ↔ r.owners handle = [] := by
    simp only [HubJob.callees, Registry.owners, List.map_eq_nil_iff]
  rw [same, ← not_iff_not, ← ne_eq, r.owned_iff handle]
  simp

theorem relays_enabled (relays : job.relays = true) (m : Machine) (t : ThreadId) : job ≠ .panic ∧ job.enabled m t = true := by
  cases job with
  | log | answer => exact ⟨fun none => (by cases none), rfl⟩
  | participant job =>
      cases job with
      | call => exact ⟨fun none => (by cases none), rfl⟩
      | _ => cases relays
  | _ => cases relays

theorem Calling.commanded (calling : Calling t later m [.hub command] more m' []) (run : Run config hooks past m)
    (commands : command.commands = true) :
    ∃ asks turns, ownTurns t more = asks :: turns ∧ Commanded (past ++ more) later command asks turns := by
  have relaying := calling.relaying commands
  generalize taken : ownTurns t more = own at relaying
  generalize finished : ([] : List Job) = left at relaying
  cases relaying with
  | waits => cases finished
  | relays relays =>
      rename_i asks turns front rest
      obtain ⟨rfl, rfl⟩ := List.append_eq_nil_iff.mp finished.symm
      have called : calledItself later turns = command.callees asks.machine.hub.registry := by simpa using relays.called
      have asking : asks ∈ more := (mem_ownTurns.mp (taken ▸ List.mem_cons_self .. : asks ∈ ownTurns t more)).1
      obtain ⟨earlier, start, reached, _⟩ := (calling.run run).reached (List.mem_append_right _ asking)
      refine ⟨asks, turns, rfl, relays.asked, called, fun few => ?_, ?_⟩
      · have counted : ∀ x ∈ earlier, x.counted := fun x old =>
          (calling.run run).counted few x (start.subset (List.mem_append_left _ old))
        rw [called]
        exact callees_ordered (reached.recorded counted).historic.ascending command
      · rintro q handle rfl
        rw [called]
        exact callees_nil _ q handle

theorem Calling.command_underway (calling : Calling t later m [.hub command] more m' left) (commands : command.commands = true)
    (unfinished : left ≠ []) : CommandUnderway later command m' t (ownTurns t more) left := by
  have relaying := calling.relaying commands
  generalize ownTurns t more = own at relaying
  cases relaying with
  | waits =>
      refine .waits fun free => ?_
      cases command with
      | scan | request => simp [Job.enabled, Job.needs, free]
      | _ => cases commands
  | relays relays =>
      rename_i rest
      obtain ⟨asked, called, within, _, plain⟩ := relays
      rcases within with rfl | ⟨inner, last, rfl, closes⟩
      · cases rest with
        | nil => exact absurd rfl unfinished
        | cons job rest =>
            obtain ⟨quiet, enabled⟩ := relays_enabled (plain job (List.mem_cons_self ..)) m' t
            exact .goes asked called quiet enabled
      · exact .within asked called closes

theorem cut_ashore (ashore : ∀ j ∈ front, j.crew = false) (member : job ∈ front) (back : List Job) : job ∈ cut (front ++ back) := by
  induction front with
  | nil => cases member
  | cons j front ih =>
      have step : cut (j :: front ++ back) = j :: cut (front ++ back) := by
        have dry := ashore j (List.mem_cons_self ..)
        cases j with
        | participant j => cases j <;> first | rfl | cases dry
        | _ => rfl
      rw [step]
      rcases List.mem_cons.mp member with rfl | member
      · exact List.mem_cons_self ..
      · exact List.mem_cons_of_mem _ (ih (fun k inside => ashore k (List.mem_cons_of_mem _ inside)) member)

theorem Calling.command_broken (calling : Calling t later m [.hub command] more m' (.panic :: left))
    (commands : command.commands = true) :
    ¬ (Moment.hookSafe ⟨m', t, .panic, left ++ later⟩ ∧ Moment.adapterSafe ⟨m', t, .panic, left ++ later⟩) := by
  rintro ⟨hooked, adapted⟩
  have relaying := calling.relaying commands
  generalize ownTurns t more = own at relaying
  generalize split : Job.panic :: left = agenda at relaying
  cases relaying with
  | waits => cases split
  | relays relays =>
      rename_i rest
      obtain ⟨_, _, within, ashore, plain⟩ := relays
      rcases within with rfl | ⟨inner, last, rfl, closes⟩
      · rw [List.nil_append] at split
        have first := plain .panic (split ▸ List.mem_cons_self ..)
        cases first
      cases inner with
      | nil =>
          rw [List.nil_append, List.singleton_append, List.cons.injEq] at split
          rw [← split.1] at closes
          cases closes
      | cons j inner =>
          rw [List.cons_append, List.cons_append, List.cons.injEq] at split
          obtain ⟨rfl, rfl⟩ := split
          have dropped : last ∈ Moment.dropped ⟨m', t, .panic, inner ++ [last] ++ rest ++ later⟩ := by
            simp only [Moment.dropped]
            rw [List.append_assoc]
            refine cut_ashore (fun k member => ashore k (List.mem_cons_of_mem _ member)) ?_ _
            exact List.mem_append_right _ (List.mem_singleton.mpr rfl)
          cases last with
          | resume => exact hooked _ dropped rfl
          | participant last =>
              cases last with
              | returned id call => exact adapted _ dropped id call rfl
              | _ => cases closes
          | _ => cases closes

theorem Calling.asks_alone (calling : Calling t later m [.hub command] more m' left) (alone : ∀ x ∈ more, x.thread = t)
    (taken : ownTurns t more = asks :: turns) : asks.machine.hub = m.hub := by
  rw [ownTurns_alone alone] at taken
  obtain ⟨rest, reached⟩ := calling.reached [] asks turns taken (alone asks (taken ▸ List.mem_cons_self ..))
  exact reached.alone (f := fun hub _ => hub) (fun _ none => (by cases none)) fun _ none => by cases none

-- A scan and a request for a device call the adapters that they find in the registry, each once, in the order of
-- registration, and no other. Nothing keeps them from it but a panic out of a log hook or an adapter, or an adapter
-- that does not return.
structure CommandsRouted (past : List Moment) (m : Machine) : Prop where
  answered : ∀ t later command more m', command.commands = true → Calling t later m [.hub command] more m' [] →
    ∃ asks turns, ownTurns t more = asks :: turns ∧ Commanded (past ++ more) later command asks turns
  underway : ∀ t later command more m' left, command.commands = true → Calling t later m [.hub command] more m' left → left ≠ [] →
    CommandUnderway later command m' t (ownTurns t more) left
  broken : ∀ t later command more m' left, command.commands = true → Calling t later m [.hub command] more m' (.panic :: left) →
    ¬ (Moment.hookSafe ⟨m', t, .panic, left ++ later⟩ ∧ Moment.adapterSafe ⟨m', t, .panic, left ++ later⟩)
  alone : ∀ t later command more m' left, Calling t later m [.hub command] more m' left → (∀ x ∈ more, x.thread = t) →
    ∀ asks turns, ownTurns t more = asks :: turns → asks.machine.hub = m.hub

theorem commands_routed (run : Run config hooks past m) : CommandsRouted past m where
  answered _ _ _ _ _ commands calling := calling.commanded run commands
  underway _ _ _ _ _ _ commands calling unfinished := calling.command_underway commands unfinished
  broken _ _ _ _ _ _ commands calling := calling.command_broken commands
  alone _ _ _ _ _ _ calling alone _ _ taken := calling.asks_alone alone taken

def meddlingAdapter : AdapterSpec Op :=
  { name := "a", script := [⟨.connect, some 0, [.request .connect ⟨1⟩, .registry (.replace ⟨1⟩ []),
    .addAdapter (.fresh { name := "c" }), .shutdown]⟩] }

def meddledSession : List Moment × Machine :=
  act (.request .connect ⟨1⟩) (rounds [(1, 0)]) (solo quietConfig [] [.registry (.replace ⟨2⟩ [phone 1]),
    .registry (.replace ⟨1⟩ [phone 1]), .addAdapter (.fresh { name := "b" }), .addAdapter (.fresh meddlingAdapter)])

def meddledTurns : List Moment × Machine := meddledSession.2.play (List.replicate 95 .caller)

theorem meddled_calling : Calling .caller [] meddledSession.2 [.hub (.request .connect ⟨1⟩)] meddledTurns.1 meddledTurns.2 [] := by
  have begins : Calling .caller [] meddledSession.2 [.hub (.request .connect ⟨1⟩)] [] meddledSession.2
      [.hub (.request .connect ⟨1⟩)] :=
    .begin rfl (List.cons_ne_nil _ _)
  have ended : meddledTurns.2.agenda .caller = [] := List.isEmpty_iff.mp (by decide +kernel)
  exact ended ▸ begins.play 95 (by decide +kernel)

theorem routed_to_two : (∃ asks turns, ownTurns .caller meddledTurns.1 = asks :: turns ∧
      Commanded (meddledSession.1 ++ meddledTurns.1) [] (.request .connect ⟨1⟩) asks turns) ∧
    (issued (meddledSession.1 ++ meddledTurns.1)).length = 3 ∧
    calledItself [] meddledTurns.1 = [(⟨1⟩, ⟨0⟩, .request .connect ⟨1⟩), (⟨2⟩, ⟨1⟩, .request .connect ⟨1⟩)] ∧
    (meddledTurns.1.filterMap (·.job.callee?)).length = 7 ∧ meddledTurns.2.hub.registry.ids = [] ∧
    meddledTurns.2.hub.terminating = true := by
  have reached : Run quietConfig [] meddledSession.1 meddledSession.2 := act_run (solo_run _ _ _) _ _
  exact ⟨(commands_routed reached).answered _ _ _ _ _ rfl meddled_calling, by decide +kernel⟩

-- A panic comes out of a hook at the record of the second call: the first adapter is asked to connect the device, the
-- second is not.
def hookAtRequest : Hook := { start := "[transport-manager] connect device", nth := 1, ops := [.panic] }

def cutRequest : List Moment × Machine :=
  solo quietConfig [hookAtRequest] [.request .connect ⟨1⟩, .registry (.replace ⟨2⟩ [phone 1]), .registry (.replace ⟨1⟩ [phone 1]),
    .addAdapter (.fresh { name := "b" }), .addAdapter (.fresh { name := "a" })]

theorem request_cut_short : Run quietConfig [hookAtRequest] cutRequest.1 cutRequest.2 ∧ (cutRequest.2.agenda .caller).isEmpty = true ∧
    cutRequest.2.hub.registry.owners ⟨1⟩ = [(⟨1⟩, ⟨0⟩), (⟨2⟩, ⟨1⟩)] ∧ (∀ x ∈ cutRequest.1, x.adapterSafe) ∧
    calledItself [] cutRequest.1 = [(⟨1⟩, ⟨0⟩, .request .connect ⟨1⟩)] := by
  refine ⟨solo_run _ _ _, ?_⟩
  decide +kernel

end TransportHub

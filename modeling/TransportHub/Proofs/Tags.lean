import TransportHub.Proofs.Sending
/-!
Tags: the transport type that an adapter had when it was registered, against what it answers now. Lists of devices
bear the former, a send asks for the latter; it keeps to the lists as long as the two agree.
-/

set_option autoImplicit false

namespace TransportHub

open Registry (origin)

variable {config : Config} {hooks : List Hook} {past before since more : List Moment} {m m' : Machine} {t u : ThreadId} {job : Job}
  {later : List Job} {x asks looks searches picks : Moment} {after : List Moment} {k : AdapterKey}
  {c : ConnectionHandle} {data : Payload}
  {device : DeviceInfo} {owner : AdapterId × AdapterKey}

def Registry.tags (r : Registry) : List (String × AdapterKey) := r.entries.map fun e => (e.deviceType, e.adapter)

def Job.tag? : Job → Option (String × AdapterKey)
  | .registry (.reserve deviceType adapter _) | .registry (.enrol _ deviceType adapter) => some (deviceType, adapter)
  | _ => none

theorem tags_alike {r r' : Registry} (alike : r.Alike r') : r'.tags = r.tags := by
  have same := congrArg (List.map fun e : Registry.Entry => (e.deviceType, e.adapter)) alike.entries
  simp only [List.map_map, Function.comp_def, Registry.Entry.bare] at same
  exact same

theorem tags_revises (r : Registry) (job : Job) : ∀ tag ∈ (job.revises r).tags, tag ∈ r.tags ∨ job.tag? = some tag := by
  intro tag member
  cases job with
  | registry job =>
      cases job with
      | enrol id deviceType adapter =>
          simp only [Job.revises, Registry.tags, Registry.enrol, List.map_append] at member
          rcases List.mem_append.mp member with old | new
          · exact .inl old
          · exact .inr (congrArg some (List.mem_singleton.mp new).symm)
      | withdraw id errand =>
          obtain ⟨e, inside, rfl⟩ := List.mem_map.mp member
          exact .inl (List.mem_map_of_mem (List.mem_of_mem_eraseP inside))
      | store id devices =>
          have same : (r.replaceDevices id devices).2.tags = r.tags := by
            refine Registry.map_revise ?_ id r.entries
            exact fun _ => rfl
          exact .inl (same ▸ member)
      | _ => exact .inl member
  | _ => exact .inl member

theorem type_kept {cast cast' : Cast} (knows : cast.knows k) (types : cast.types <+: cast'.types) :
    cast'.deviceType k = cast.deviceType k := by
  have answers : ∀ c : Cast, c.deviceType k = (c.types[k.val]?).getD "" := by
    intro c
    simp only [Cast.deviceType, Cast.adapter?, Cast.types, List.getElem?_map]
    cases c.adapters[k.val]? <;> rfl
  obtain ⟨new, same⟩ := types
  have within : k.val < cast.types.length := by simpa [Cast.knows, Cast.players, Cast.types] using knows
  rw [answers, answers, ← same, List.getElem?_append_left within]

theorem tag_next (m : Machine) (t : ThreadId) {j : Job} (member : j ∈ (job.exec m t).2) {tag : String × AdapterKey}
    (here : j.tag? = some tag) :
    (job.exec m t).1.cast.deviceType tag.2 = tag.1 ∨ job.tag? = some tag := by
  have leads := leads_exec m t job j member
  cases j with
  | registry j =>
      cases j with
      | reserve deviceType adapter errand =>
          cases here
          rcases reserve_origin leads with ⟨other, rfl⟩ | ⟨ref, rfl⟩
          · simp only [Job.exec, HubJob.exec] at member ⊢
            split at member
            · simp at member
            · simp only [Plan.register, List.mem_cons, reduceCtorEq, List.not_mem_nil, or_false, false_or, Job.registry.injEq,
                RegistryJob.reserve.injEq] at member
              obtain ⟨rfl, rfl, _⟩ := member
              exact .inl rfl
          · simp only [Job.exec, Machine.perform, Machine.performOwned] at member ⊢
            split at member
            · rename_i owned
              simp only [Plan.register, List.mem_cons, reduceCtorEq, List.not_mem_nil, or_false, false_or, Job.registry.injEq,
                RegistryJob.reserve.injEq] at member
              obtain ⟨rfl, rfl, _⟩ := member
              simp only [owned, if_true]
              exact .inl trivial
            · simp at member
      | enrol id deviceType adapter =>
          cases here
          obtain ⟨_, _, errand, rfl⟩ := enrol_origin leads
          simp only [Job.exec, RegistryJob.exec, Job.logRegistry, List.mem_cons, List.not_mem_nil, or_false, reduceCtorEq, false_or,
            Job.registry.injEq, RegistryJob.enrol.injEq] at member
          rcases member with ⟨_, rfl, rfl⟩ | none
          · exact .inr rfl
          · split at none <;> cases none
      | _ => cases here
  | _ => cases here

structure Tagged (m : Machine) : Prop where
  registered : ∀ tag ∈ m.hub.registry.tags, m.cast.deviceType tag.2 = tag.1
  pending : ∀ u, ∀ j ∈ m.agenda u, ∀ tag, j.tag? = some tag → m.cast.deviceType tag.2 = tag.1

theorem fresh_tag {agenda : List Job} (fresh : Fresh config u agenda) : ∀ j ∈ agenda, j.tag? = none :=
  fresh.all (fun _ => rfl) rfl (fun _ => rfl) (fun _ _ => rfl) rfl fun _ => rfl

theorem Tagged.begins (before : Tagged m) {m' : Machine} (cast : m'.cast = m.cast) (hub : m'.hub = m.hub)
    (agendas : ∀ u, m'.agenda u = m.agenda u ∨ (m.agenda u = [] ∧ Fresh config u (m'.agenda u))) : Tagged m' where
  registered := by
    rw [cast, hub]
    exact before.registered
  pending u j member tag here := by
    rw [cast]
    rcases agendas u with same | ⟨_, fresh⟩
    · exact before.pending u j (same ▸ member) tag here
    · rw [fresh_tag fresh j member] at here
      cases here

theorem Tagged.carry (before : Tagged m) (run : Run config hooks past m) (agenda : m.agenda t = job :: later)
    (steady : job.retypes = false) :
    Tagged (m.carry t job later) := by
  have peopled := run.peopled
  have types : m.cast.types <+: (job.exec m t).1.cast.types := (grows_exec m t job).types steady
  have keys : ∀ {j : Job} {tag}, j.tag? = some tag → tag.2 ∈ j.keys := by
    intro j tag here
    unfold Job.tag? at here
    split at here <;> cases here <;> exact List.mem_singleton.mpr rfl
  have kept : ∀ {u j tag}, j ∈ m.agenda u → j.tag? = some tag → (job.exec m t).1.cast.deviceType tag.2 = tag.1 :=
      fun {u j tag} member here =>
    (type_kept (peopled.agendas u j member tag.2 (keys here)) types).trans (before.pending u j member tag here)
  have mine : job ∈ m.agenda t := agenda ▸ List.mem_cons_self ..
  refine ⟨fun tag member => ?_, fun u j member tag here => ?_⟩
  · rw [hub_carry, tags_alike (alike_exec m t job)] at member
    rcases tags_revises m.hub.registry job tag member with old | here
    · have known : m.cast.knows tag.2 := by
        obtain ⟨e, inside, rfl⟩ := List.mem_map.mp old
        exact peopled.registered _ (List.mem_map_of_mem inside)
      exact (type_kept known types).trans (before.registered tag old)
    · exact kept mine here
  · rcases run.carried agenda member with ⟨_, next⟩ | ⟨old, _⟩ | ⟨_, fresh, begins⟩
    · rcases tag_next m t next here with now | source
      · exact now
      · exact kept mine source
    · exact kept old here
    · rw [fresh_tag fresh j begins] at here
      cases here

theorem Run.tagged (run : Run config hooks past m) (steady : ∀ x ∈ past, x.job.retypes = false) : Tagged m := by
  refine Run.induct (G := fun x => x.job.retypes = false)
    (P := fun _ m => Tagged m) ?construct ?assemble ?call ?client ?carry ?unwind run steady
  case construct =>
    exact ⟨fun _ none => (by cases none), fun u j member tag here => by
      rw [initial_begins (fun _ _ fresh => fresh_tag fresh) hooks .construction u j member] at here
      cases here⟩
  case assemble =>
    exact ⟨fun _ none => (by cases none), fun u j member tag here => by
      rw [initial_begins (fun _ _ fresh => fresh_tag fresh) hooks .assembly u j member] at here
      cases here⟩
  case call => exact fun op _ before idle => before.begins rfl rfl (call_fresh config idle op)
  case client => exact fun name op _ before => before.begins rfl rfl (client_fresh config _ name op)
  case carry => exact fun run before agenda _ _ steady => before.carry run agenda steady
  case unwind =>
    intro past m t later run before agenda _
    refine ⟨?_, fun u j member tag here => ?_⟩ <;> rw [cast_unwind]
    · rw [registry_unwind]
      exact before.registered
    · rcases mem_unwind agenda member with old | ⟨d, caught⟩
      · exact before.pending u j old tag here
      · simp only [ParticipantJob.afterPanic, List.mem_cons, List.not_mem_nil, or_false] at caught
        rcases caught with rfl | rfl <;> cases here

theorem Run.types_since (run : Run config hooks past m) (split : past = before ++ x :: since) (notPanic : x.job ≠ .panic)
    (steady : ∀ y ∈ x :: since, y.job.retypes = false) : x.machine.cast.types <+: m.cast.types := by
  have mine := steady x (List.mem_cons_self ..)
  refine Run.induct_since (G := fun y => y.job.retypes = false)
    (P := fun _ m => x.machine.cast.types <+: m.cast.types) ?begins ?call ?client
    ?carry ?unwind run split notPanic fun y member => steady y (List.mem_cons_of_mem _ member)
  case begins => exact (grows_exec x.machine x.thread x.job).types mine
  case call => exact fun _ _ kept _ => kept
  case client => exact fun _ _ _ kept => kept
  case carry => exact fun _ kept _ _ _ steady => kept.trans ((grows_exec _ _ _).types steady)
  case unwind =>
    intro since m t later _ kept _ _
    rw [cast_unwind]
    exact kept

-- Each adapter that lists the device answers its transport type now just if it was registered with it.
def Agreeing (r : Registry) (cast : Cast) (device : DeviceInfo) : Prop :=
  ∀ e ∈ r.entries, e.lists device.handle = true → (cast.deviceType e.adapter = device.deviceType ↔ e.deviceType = device.deviceType)

-- The list of devices has one with this handle and transport type, and an adapter that contributes it.
def Published (r : Registry) (device : DeviceInfo) : Prop :=
  ∃ info ∈ r.aggregate, info.handle = device.handle ∧ info.deviceType = device.deviceType

def Contributes (r : Registry) (device : DeviceInfo) (owner : AdapterId × AdapterKey) : Prop :=
  ∃ e ∈ r.entries, owner = (e.id, e.adapter) ∧ e.lists device.handle = true ∧ e.deviceType = device.deviceType

theorem published_iff (r : Registry) (device : DeviceInfo) :
    Published r device ↔ ∃ e ∈ r.entries, e.lists device.handle = true ∧ e.deviceType = device.deviceType := by
  constructor
  · rintro ⟨info, member, handle, deviceType⟩
    obtain ⟨e, known, tagged⟩ := List.mem_flatMap.mp member
    obtain ⟨d, inside, rfl⟩ := List.mem_map.mp tagged
    exact ⟨e, known, List.any_eq_true.mpr ⟨d, inside, decide_eq_true handle⟩, deviceType⟩
  · rintro ⟨e, known, lists, deviceType⟩
    obtain ⟨d, inside, same⟩ := List.any_eq_true.mp lists
    exact ⟨d.tagged e.deviceType, List.mem_flatMap.mpr ⟨e, known, List.mem_map_of_mem inside⟩, of_decide_eq_true same, deviceType⟩

theorem preferred_agrees {r : Registry} {cast : Cast} (preferred : Preferred cast device.deviceType (r.owners device.handle) owner)
    (agreeing : Agreeing r cast device) (published : Published r device) : Contributes r device owner := by
  obtain ⟨wanted, known, lists, tag⟩ := (published_iff r device).mp published
  have answers := (agreeing wanted known lists).mpr tag
  have member : owner ∈ r.owners device.handle ∧ cast.deviceType owner.2 = device.deviceType := by
    cases preferred with
    | matching before after split agrees others =>
        rw [split]
        exact ⟨List.mem_append_right _ (List.mem_cons_self ..), agrees⟩
    | first after split none =>
        refine absurd answers (none (wanted.id, wanted.adapter) ?_)
        exact List.mem_map_of_mem (List.mem_filter.mpr ⟨known, lists⟩)
  obtain ⟨e, inside, rfl⟩ := List.mem_map.mp member.1
  obtain ⟨known, lists⟩ := List.mem_filter.mp inside
  exact ⟨e, known, rfl, lists, (agreeing e known lists).mp member.2⟩

theorem ownTurns_split {own : List Moment} (taken : ownTurns t more = own ++ x :: after) :
    ∃ front back, more = front ++ x :: back ∧ ownTurns t front = own := by
  obtain ⟨front, rest, rfl, same, others⟩ := List.filter_eq_append_iff.mp taken
  obtain ⟨between, back, rfl, none, _, _⟩ := List.filter_eq_cons_iff.mp others
  refine ⟨front ++ between, back, (List.append_assoc ..).symm, ?_⟩
  have idle : between.filter (·.thread = t) = [] := List.filter_eq_nil_iff.mpr none
  rw [ownTurns, List.filter_append, same, idle, List.append_nil]

theorem Calling.agreeing {left : List Job} (calling : Calling t later m [.hub (.send c data)] more m' left)
    (run : Run config hooks past m) (steady : ∀ x ∈ past ++ more, x.job.retypes = false)
    (taken : ownTurns t more = asks :: looks :: searches :: picks :: after)
    (searched : searches.job = .hub (.findOwners c data device)) :
    Agreeing searches.machine.hub.registry picks.machine.cast device := by
  have split : ownTurns t more = [asks, looks, searches] ++ picks :: after := taken
  obtain ⟨front, back, rfl, early⟩ := ownTurns_split split
  replace split : ownTurns t front = [asks, looks] ++ searches :: [] := early
  obtain ⟨earlier, between, rfl, _⟩ := ownTurns_split split
  have start : past ++ earlier ++ searches :: between <+: past ++ (earlier ++ searches :: between ++ picks :: back) :=
    ⟨picks :: back, by simp⟩
  have reached : Run config hooks (past ++ earlier ++ searches :: between) picks.machine :=
    ((calling.run run).before (x := picks) ⟨back, by simp⟩).1
  have there : Run config hooks (past ++ earlier) searches.machine := (reached.before (x := searches) ⟨between, by simp⟩).1
  have kept : ∀ y ∈ past ++ earlier ++ searches :: between, y.job.retypes = false := fun y member => steady y (start.subset member)
  have tagged := there.tagged fun y member => kept y (List.mem_append_left _ member)
  have types := reached.types_since rfl (fun panics => by rw [searched] at panics; cases panics) fun y member =>
    kept y (List.mem_append_right _ member)
  intro e known _
  have answers : picks.machine.cast.deviceType e.adapter = e.deviceType :=
    (type_kept (there.peopled.registered _ (List.mem_map_of_mem known)) types).trans (tagged.registered _ (List.mem_map_of_mem known))
  rw [answers]

theorem Calling.sent_tagged (calling : Calling t later m [.hub (.send c data)] more m' []) (run : Run config hooks past m)
    (taken : ownTurns t more = asks :: looks :: searches :: picks :: after)
    (searched : searches.job = .hub (.findOwners c data device))
    (agreeing : Agreeing searches.machine.hub.registry picks.machine.cast device)
    (published : Published searches.machine.hub.registry device) :
    ∃ owner, Contributes searches.machine.hub.registry device owner ∧
      ∃ hands ∈ after, hands.job = Job.call owner.1 owner.2 (.send c picks.machine.hub.handles.nextFrame data) := by
  have outcome := (calling.sending run).outcome rfl
  rw [taken] at outcome
  generalize own : asks :: looks :: searches :: picks :: after = turns at outcome
  generalize m'.reply t = r at outcome
  cases outcome with
  | ending | unlinked => simp at own
  | unowned asked admitted looked linked sought none answered =>
      simp only [List.cons.injEq] at own
      obtain ⟨rfl, rfl, rfl, rfl, rfl⟩ := own
      rw [searched] at sought
      cases sought
      obtain ⟨e, known, lists, _⟩ := (published_iff _ _).mp published
      have member : (e.id, e.adapter) ∈ searches.machine.hub.registry.owners device.handle :=
        List.mem_map_of_mem (List.mem_filter.mpr ⟨known, lists⟩)
      rw [none] at member
      cases member
  | handed picked handing known settled answered =>
      simp only [List.cons_append, List.cons.injEq] at own
      obtain ⟨rfl, rfl, rfl, rfl, rfl⟩ := own
      have sought := picked.searched
      rw [searched] at sought
      cases sought
      exact ⟨_, preferred_agrees picked.preferred agreeing published, _, by simp, handing⟩

theorem Calling.sent_alone (calling : Calling t later m [.hub (.send c data)] more m' []) (run : Run config hooks past m)
    (alone : ∀ x ∈ more, x.thread = t) (admitted : m.hub.terminating = false) (linked : m.hub.connections.get? c = some device)
    (agreeing : Agreeing m.hub.registry m.cast device) (published : Published m.hub.registry device) :
    ∃ owner, Contributes m.hub.registry device owner ∧ ∃ hands ∈ more, ∃ s, hands.job = Job.call owner.1 owner.2
      (.send c s data) := by
  have outcome := (calling.sending run).outcome rfl
  have early := calling.send_early run alone
  rw [ownTurns_alone alone] at outcome
  have shape : ∃ asks looks searches picks after, more = asks :: looks :: searches :: picks :: after ∧
      searches.job = .hub (.findOwners c data device) := by
    generalize m'.reply t = r at outcome
    cases outcome with
    | ending asked terminating answered =>
        have same := (early [] _ [_] rfl (Nat.zero_le _)).1
        rw [same, admitted] at terminating
        cases terminating
    | @unlinked asks looks answers asked _ looked unknown answered =>
        have same := (early [asks] looks [answers] rfl (by simp)).1
        rw [same, linked] at unknown
        cases unknown
    | @unowned asks looks searches answers _ asked _ looked known searched none answered =>
        have same := (early [asks] looks [searches, answers] rfl (by simp)).1
        rw [same, linked] at known
        cases known
        exact ⟨asks, looks, searches, answers, [], rfl, searched⟩
    | @handed asks looks searches picks hands settles answers front back _ _ _ picked handing =>
        have same := (early [asks] looks (searches :: picks :: front ++ hands :: back ++ [settles, answers]) rfl (by simp)).1
        have known := picked.linked
        rw [same, linked] at known
        cases known
        exact ⟨asks, looks, searches, picks, front ++ hands :: back ++ [settles, answers], rfl, picked.searched⟩
  obtain ⟨asks, looks, searches, picks, after, rfl, searched⟩ := shape
  have there := (early [asks, looks] searches (picks :: after) rfl (by simp)).1
  have here := (early [asks, looks, searches] picks after rfl (by simp)).2
  have sent := calling.sent_tagged run (ownTurns_alone alone) searched (by rwa [there, here]) (by rwa [there])
  rw [there] at sent
  obtain ⟨owner, contributes, hands, member, handing⟩ := sent
  exact ⟨owner, contributes, hands, by simp [member], _, handing⟩

-- A send keeps to the published lists of devices as long as the adapters that list the device answer their transport
-- types as they were registered; so they do in a session in which nobody changes what an adapter answers.
structure TagsHonoured (past : List Moment) (m : Machine) : Prop where
  steady : (∀ x ∈ past, x.job.retypes = false) → ∀ e ∈ m.hub.registry.entries, m.cast.deviceType e.adapter = e.deviceType
  agreeing : ∀ t later c data more m' left, Calling t later m [.hub (.send c data)] more m' left →
    (∀ x ∈ past ++ more, x.job.retypes = false) →
    ∀ asks looks searches picks after device, ownTurns t more = asks :: looks :: searches :: picks :: after →
      searches.job = .hub (.findOwners c data device) → Agreeing searches.machine.hub.registry picks.machine.cast device
  picked : ∀ c data asks looks searches picks device owner, Picked c data asks looks searches picks device owner →
    Agreeing searches.machine.hub.registry picks.machine.cast device → Published searches.machine.hub.registry device →
      Contributes searches.machine.hub.registry device owner
  sent : ∀ t later c data more m', Calling t later m [.hub (.send c data)] more m' [] → ∀ asks looks searches picks after device,
    ownTurns t more = asks :: looks :: searches :: picks :: after → searches.job = .hub (.findOwners c data device) →
      Agreeing searches.machine.hub.registry picks.machine.cast device → Published searches.machine.hub.registry device →
        ∃ owner, Contributes searches.machine.hub.registry device owner ∧
          ∃ hands ∈ after, hands.job = Job.call owner.1 owner.2 (.send c picks.machine.hub.handles.nextFrame data)
  alone : ∀ t later c data more m' device, Calling t later m [.hub (.send c data)] more m' [] → (∀ x ∈ more, x.thread = t) →
    m.hub.terminating = false → m.hub.connections.get? c = some device → Agreeing m.hub.registry m.cast device →
      Published m.hub.registry device → ∃ owner, Contributes m.hub.registry device owner ∧
        ∃ hands ∈ more, ∃ s, hands.job = Job.call owner.1 owner.2 (.send c s data)
  underway : ∀ t later c data more m' left, Calling t later m [.hub (.send c data)] more m' left → left ≠ [] →
    SendUnderway c data m' t (ownTurns t more) left

theorem tags_honoured (run : Run config hooks past m) : TagsHonoured past m where
  steady unchanged _ known := (run.tagged unchanged).registered _ (List.mem_map_of_mem known)
  agreeing _ _ _ _ _ _ _ calling unchanged _ _ _ _ _ _ taken searched := calling.agreeing run unchanged taken searched
  picked _ _ _ _ _ _ _ _ picked agreeing published := preferred_agrees picked.preferred agreeing published
  sent _ _ _ _ _ _ calling _ _ _ _ _ _ taken searched agreeing published := calling.sent_tagged run taken searched agreeing published
  alone _ _ _ _ _ _ _ calling alone admitted linked agreeing published :=
    calling.sent_alone run alone admitted linked agreeing published
  underway _ _ _ _ _ _ _ calling unfinished := (calling.sending run).underway unfinished

-- Two adapters list the device of a connection, of which the second was registered with its transport type.
def sharedDevice : List Moment × Machine := linkedSession [] [{ name := "b", deviceType := "t" }, { name := "a" }]

def taggedSession : List Moment × Machine := act (.send ⟨4⟩ [7]) (rounds [(1, 0)]) sharedDevice

def taggedTurns : List Moment × Machine := taggedSession.2.play (List.replicate 11 .caller)

theorem tagged_calling : Calling .caller [] taggedSession.2 [.hub (.send ⟨4⟩ [7])] taggedTurns.1 taggedTurns.2 [] := by
  have begins : Calling .caller [] taggedSession.2 [.hub (.send ⟨4⟩ [7])] [] taggedSession.2 [.hub (.send ⟨4⟩ [7])] :=
    .begin rfl (List.cons_ne_nil _ _)
  have ended : taggedTurns.2.agenda .caller = [] := List.isEmpty_iff.mp (by decide +kernel)
  exact ended ▸ begins.play 11 (by decide +kernel)

def frameTakers (past : List Moment) : List (AdapterId × AdapterKey) :=
  past.filterMap fun x => match x.job with
    | .participant (.call id adapter (.send ..)) => some (id, adapter)
    | _ => none

theorem tagged_taker : (∃ owner, Contributes taggedSession.2.hub.registry { handle := ⟨1⟩, deviceType := "t" } owner ∧
      ∃ hands ∈ taggedTurns.1, ∃ s, hands.job = Job.call owner.1 owner.2 (.send ⟨4⟩ s [7])) ∧
    (∀ x ∈ taggedSession.1, x.job.retypes = false) ∧ frameTakers taggedTurns.1 = [(⟨2⟩, ⟨1⟩)] := by
  have reached : Run quietConfig [] taggedSession.1 taggedSession.2 := act_run (linkedSession_run _ _) _ _
  have alone : ∀ x ∈ taggedTurns.1, x.thread = .caller := by decide +kernel
  have linked : taggedSession.2.hub.connections.get? ⟨4⟩ = some { handle := ⟨1⟩, deviceType := "t" } := by decide +kernel
  have unchanged : ∀ x ∈ taggedSession.1, x.job.retypes = false := by decide +kernel
  have agreeing : Agreeing taggedSession.2.hub.registry taggedSession.2.cast { handle := ⟨1⟩, deviceType := "t" } :=
      fun e known _ => by
    rw [(reached.tagged unchanged).registered _ (List.mem_map_of_mem known)]
  have published : Published taggedSession.2.hub.registry { handle := ⟨1⟩, deviceType := "t" } := by
    unfold Published
    decide +kernel
  have sent := (tags_honoured reached).alone _ _ _ _ _ _ _ tagged_calling alone (by decide +kernel) linked agreeing published
  exact ⟨sent, unchanged, by decide +kernel⟩

-- The second adapter answers another type later on: the list of devices still shows its device with the type of the
-- connection, and the frame goes to the first one, which has never had that type.
def retypedSession : List Moment × Machine :=
  act (.send ⟨4⟩ [7]) (rounds [(12, 0)]) (act (.setType "b" "u") (rounds [(9, 0)]) sharedDevice)

theorem tag_ignored : Run quietConfig [] retypedSession.1 retypedSession.2 ∧ retypedSession.2.hub.terminating = false ∧
    retypedSession.2.hub.connections.get? ⟨4⟩ = some { handle := ⟨1⟩, deviceType := "t" } ∧
    retypedSession.2.hub.registry.aggregate = [(phone 1).tagged "", (phone 1).tagged "t"] ∧
    retypedSession.2.hub.registry.entries.map (fun e => (e.id, e.deviceType)) = [(⟨1⟩, ""), (⟨2⟩, "t")] ∧
    frameTakers retypedSession.1 = [(⟨1⟩, ⟨0⟩)] ∧ (retypedSession.2.agenda .caller).isEmpty = true := by
  refine ⟨act_run (act_run (linkedSession_run _ _) _ _) _ _, ?_⟩
  decide +kernel

end TransportHub

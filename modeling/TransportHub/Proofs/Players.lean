import TransportHub.Proofs.RegistryHistory
import TransportHub.Proofs.Routine
/-!
Players: the adapters of a cast. They come in and stay what they are, and whoever is registered, about to be, or
about to be called is one of them.
-/

set_option autoImplicit false

namespace TransportHub

variable {config : Config} {hooks : List Hook} {past : List Moment} {m m' : Machine} {t u : ThreadId}
  {job : Job} {later : List Job} {k : AdapterKey} {a : Adapter} {retyped : Bool}

def Cast.players (c : Cast) : List (AdapterSpec Op) := c.adapters.map (·.spec)

def Cast.types (c : Cast) : List String := c.adapters.map (·.deviceType)

def Cast.knows (c : Cast) (k : AdapterKey) : Prop := k.val < c.players.length

theorem knows_iff (c : Cast) (k : AdapterKey) : c.knows k ↔ ∃ a, c.adapter? k = some a := by
  rw [Cast.knows, Cast.players, List.length_map]
  exact ⟨fun within => ⟨_, List.getElem?_eq_getElem within⟩, fun ⟨_, known⟩ => (List.getElem?_eq_some_iff.mp known).1⟩

structure Cast.Grows (retyped : Bool) (c c' : Cast) : Prop where
  players : c.players <+: c'.players
  types : retyped = false → c.types <+: c'.types
  names : ∀ named ∈ c'.adapterNames, named ∈ c.adapterNames ∨ c'.knows named.2

theorem Cast.Grows.still {c c' : Cast} (players : c'.players = c.players) (types : retyped = false → c'.types = c.types)
    (names : c'.adapterNames = c.adapterNames) : c.Grows retyped c' :=
  ⟨players ▸ List.prefix_rfl, fun kept => types kept ▸ List.prefix_rfl, fun _ member => .inl (names ▸ member)⟩

theorem Cast.Grows.rfl (c : Cast) : c.Grows retyped c := .still (Eq.refl _) (fun _ => Eq.refl _) (Eq.refl _)

theorem map_setAdapter {α : Type} (f : Adapter → α) (c : Cast) (a' : Adapter) (known : c.adapter? k = some a) (same : f a' = f a) :
    (c.setAdapter k a').adapters.map f = c.adapters.map f := by
  obtain ⟨within, here⟩ := List.getElem?_eq_some_iff.mp known
  simp only [Cast.setAdapter, List.map_set, same]
  refine List.ext_getElem? fun i => ?_
  by_cases at_ : k.val = i
  · subst at_
    simp [within, here]
  · simp [List.getElem?_set_ne at_]

theorem players_enterAdapter (c : Cast) (spec : AdapterSpec Op) : (c.enterAdapter spec).2.players = c.players ++ [spec] := by
  simp [Cast.enterAdapter, Cast.players]

theorem knows_enterAdapter (c : Cast) (spec : AdapterSpec Op) : (c.enterAdapter spec).2.knows (c.enterAdapter spec).1 := by
  rw [Cast.knows, players_enterAdapter, List.length_append]
  simp [Cast.enterAdapter, Cast.players]

theorem grows_enterAdapter (c : Cast) (spec : AdapterSpec Op) : c.Grows retyped (c.enterAdapter spec).2 where
  players := ⟨_, (players_enterAdapter ..).symm⟩
  types _ := ⟨[spec.deviceType], by simp [Cast.types, Cast.enterAdapter]⟩
  names named member := by
    rcases List.mem_cons.mp member with rfl | old
    · exact .inr (knows_enterAdapter c spec)
    · exact .inl old

theorem grows_resolveAdapter (c : Cast) (ref : Ref (AdapterSpec Op)) : c.Grows retyped (c.resolveAdapter ref).2 := by
  unfold Cast.resolveAdapter
  repeat' split
  · exact grows_enterAdapter c _
  · exact .rfl c
  · exact grows_enterAdapter c _

theorem mem_of_lookup {α : Type} {names : List (String × α)} {name : String} {v : α} (found : names.lookup name = some v) :
    (name, v) ∈ names := by
  obtain ⟨_, _, rfl, _⟩ := List.lookup_eq_some_iff.mp found
  exact List.mem_append_right _ (List.mem_cons_self ..)

theorem knows_resolveAdapter {c : Cast} (names : ∀ named ∈ c.adapterNames, c.knows named.2) (ref : Ref (AdapterSpec Op)) :
    (c.resolveAdapter ref).2.knows (c.resolveAdapter ref).1 := by
  cases ref with
  | fresh spec => exact knows_enterAdapter c spec
  | named name =>
      simp only [Cast.resolveAdapter]
      split
      · exact names _ (mem_of_lookup ‹_›)
      · exact knows_enterAdapter c _

theorem grows_resolveListener (c : Cast) (names : List (String × ListenerId)) (ref : Ref (ListenerSpec Op)) :
    c.Grows retyped (c.resolveListener names ref).2.2 := by
  cases ref with
  | fresh spec => exact .still rfl (fun _ => rfl) rfl
  | named name =>
      simp only [Cast.resolveListener]
      split <;> exact .still rfl (fun _ => rfl) rfl

theorem namedAdapter_known {c : Cast} {name : String} (named : c.namedAdapter? name = some (k, a)) : c.adapter? k = some a := by
  unfold Cast.namedAdapter? at named
  obtain ⟨key, _, named⟩ := Option.bind_eq_some_iff.mp named
  obtain ⟨a', known, same⟩ := Option.bind_eq_some_iff.mp named
  cases same
  exact known

-- Only the application changes what an adapter answers.
def Job.retypes : Job → Bool
  | .perform op => (op matches .setType ..)
  | _ => false

theorem Recast.grows {c c' : Cast} (recast : Recast c job c') : c.Grows job.retypes c' := by
  cases recast with
  | same | hear => exact .still rfl (fun _ => rfl) rfl
  | adapter op ref => exact grows_resolveAdapter c ref
  | device op ref =>
      have grows : c.Grows (Job.perform op).retypes _ := grows_resolveListener c c.deviceListenerNames ref
      exact ⟨grows.players, grows.types, grows.names⟩
  | data op ref =>
      have grows : c.Grows (Job.perform op).retypes _ := grows_resolveListener c c.dataListenerNames ref
      exact ⟨grows.players, grows.types, grows.names⟩
  | retype deviceType named =>
      exact .still (map_setAdapter (·.spec) c _ (namedAdapter_known named) rfl) (fun kept => by cases kept) rfl
  | call known spec deviceType =>
      exact .still (map_setAdapter (·.spec) c _ known spec) (fun _ => map_setAdapter (·.deviceType) c _ known deviceType) rfl

theorem grows_exec (m : Machine) (t : ThreadId) (job : Job) : m.cast.Grows job.retypes (job.exec m t).1.cast :=
  (recast_exec m t job).grows

theorem Cast.Grows.knows {c c' : Cast} (grows : c.Grows retyped c') (knows : c.knows k) : c'.knows k :=
  Nat.lt_of_lt_of_le knows grows.players.length_le

def Job.keys : Job → List AdapterKey
  | .registry (.reserve _ k _) | .registry (.enrol _ _ k) | .participant (.call _ k _) | .hub (.add k) | .hub (.claimNew _ k)
  | .hub (.finishStart _ k) => [k]
  | .hub (.forward _ _ _ first others) => first.2 :: others.map (·.2)
  | _ => []

def Registry.keys (r : Registry) : List AdapterKey := r.entries.map (·.adapter)

theorem keys_update (r : Registry) (id : AdapterId) {change : Registry.Entry → Registry.Entry}
    (same : ∀ e, (change e).adapter = e.adapter) :
    (r.update id change).keys = r.keys := Registry.map_revise same id r.entries

theorem keys_alike {r r' : Registry} (alike : r.Alike r') : r'.keys = r.keys := by
  have same := congrArg (List.map (·.adapter)) alike.entries
  simp only [List.map_map, Function.comp_def, Registry.Entry.bare] at same
  exact same

theorem keys_beginStart (r : Registry) (id : AdapterId) : ∀ key ∈ (r.beginStart id).1, key ∈ r.keys := by
  intro key member
  unfold Registry.beginStart at member
  split at member
  · rename_i e found
    split at member
    · cases member
      exact List.mem_map_of_mem (List.mem_of_find?_eq_some found)
    · cases member
  · cases member

theorem keys_beginStartAll (r : Registry) : ∀ claimed ∈ r.beginStartAll.1, claimed.2 ∈ r.keys := by
  intro claimed member
  obtain ⟨e, inside, rfl⟩ := List.mem_map.mp member
  exact List.mem_map_of_mem (List.mem_filter.mp inside).1

theorem keys_unregister (r : Registry) (id : AdapterId) :
    (∀ key ∈ (r.unregister id).2.keys, key ∈ r.keys) ∧ ∀ w ∈ (r.unregister id).1, w.adapter ∈ r.keys := by
  refine ⟨fun key member => ?_, fun w member => ?_⟩
  · obtain ⟨e, inside, rfl⟩ := List.mem_map.mp member
    exact List.mem_map_of_mem (List.mem_of_mem_eraseP inside)
  · obtain ⟨e, found, rfl⟩ := Option.map_eq_some_iff.mp member
    exact List.mem_map_of_mem (List.mem_of_find?_eq_some found)

theorem keys_owners (r : Registry) (handle : DeviceHandle) : ∀ owner ∈ r.owners handle, owner.2 ∈ r.keys := by
  intro owner member
  obtain ⟨e, inside, rfl⟩ := List.mem_map.mp member
  exact List.mem_map_of_mem (List.mem_filter.mp inside).1

theorem keys_adapters (r : Registry) : ∀ adapter ∈ r.adapters, adapter.2 ∈ r.keys := by
  intro adapter member
  obtain ⟨e, inside, rfl⟩ := List.mem_map.mp member
  exact List.mem_map_of_mem inside

theorem keys_revises (r : Registry) (job : Job) : ∀ key ∈ (job.revises r).keys, key ∈ r.keys ∨ key ∈ job.keys := by
  intro key member
  cases job with
  | registry job =>
      cases job with
      | enrol id deviceType adapter =>
          simp only [Job.revises, Registry.keys, Registry.enrol, List.map_append] at member
          exact List.mem_append.mp member
      | withdraw id errand => exact .inl ((keys_unregister r id).1 key member)
      | store id devices =>
          have same : (r.replaceDevices id devices).2.keys = r.keys := keys_update r id fun _ => rfl
          exact .inl (same ▸ member)
      | _ => exact .inl member
  | _ => exact .inl member

def Job.engagesPlayer : Job → Bool
  | .perform (.addAdapter _) | .perform (.register _) | .registry (.reserve ..) | .registry (.withdraw ..) | .hub (.add _)
  | .hub (.claimNew ..) | .hub .claimAll | .hub (.finishStart ..) | .hub .scan | .hub (.request ..) | .hub (.findOwners ..)
  | .hub (.forward ..) => true
  | _ => false

theorem keys_source {j : Job} (leads : job.leads j = true) (here : j.keys ≠ []) : job.engagesPlayer = true := by
  unfold Job.keys at here
  split at here <;> dsimp only [Job.leads] at leads
  case h_3 =>
    split at leads <;> (split at leads <;> first | rfl | cases leads)
  case h_8 => exact absurd rfl here
  all_goals (split at leads <;> first | rfl | cases leads)

-- Every adapter that somebody is about to turn to has come in.
structure Peopled (m : Machine) : Prop where
  names : ∀ named ∈ m.cast.adapterNames, m.cast.knows named.2
  registered : ∀ key ∈ m.hub.registry.keys, m.cast.knows key
  agendas : ∀ u, ∀ j ∈ m.agenda u, ∀ key ∈ j.keys, m.cast.knows key

theorem Peopled.nobody {m : Machine} (cast : m.cast = {}) (registry : m.hub.registry = {})
    (agendas : ∀ u, ∀ j ∈ m.agenda u, j.keys = []) :
    Peopled m where
  names := by
    rw [cast]
    exact fun _ none => by cases none
  registered := by
    rw [registry]
    exact fun _ none => by cases none
  agendas u j member key inside := by
    rw [agendas u j member] at inside
    cases inside

theorem preferred_mem (c : Cast) (deviceType : String) (first : AdapterId × AdapterKey) (others : List (AdapterId × AdapterKey)) :
    HubJob.preferred c deviceType first others ∈ first :: others := by
  unfold HubJob.preferred
  cases found : (first :: others).find? fun owner => c.deviceType owner.2 = deviceType with
  | none => exact List.mem_cons_self ..
  | some owner => exact List.mem_of_find?_eq_some found

theorem keys_performs (m : Machine) (t : ThreadId) (op : Op) (names : ∀ named ∈ m.cast.adapterNames, m.cast.knows named.2) :
    ∀ j ∈ ((Job.perform op).exec m t).2, ∀ key ∈ j.keys, ((Job.perform op).exec m t).1.cast.knows key := by
  intro j member key inside
  have engages := keys_source (leads_exec m t (.perform op) j member) (List.ne_nil_of_mem inside)
  cases op with
  | addAdapter ref | register ref =>
      simp only [Job.exec, Machine.perform] at member ⊢
      split at member
      · rename_i owned
        simp only [owned, if_true]
        simp [Machine.performOwned, Plan.addAdapter, Plan.register] at member
        rcases member with rfl | rfl
        · cases inside
        · cases List.mem_singleton.mp inside
          exact knows_resolveAdapter names ref
      · cases List.mem_singleton.mp member
        cases inside
  | _ => cases engages

theorem keys_registry (m : Machine) (t : ThreadId) (job : RegistryJob) : ∀ j ∈ ((Job.registry job).exec m t).2, ∀ key ∈ j.keys,
    key ∈ (Job.registry job).keys ∨ key ∈ m.hub.registry.keys := by
  intro j member key inside
  have engages := keys_source (leads_exec m t (.registry job) j member) (List.ne_nil_of_mem inside)
  cases job with
  | reserve deviceType adapter errand =>
      refine .inl ?_
      simp only [Job.exec, RegistryJob.exec, List.mem_cons, List.not_mem_nil, or_false] at member
      rcases member with rfl | rfl | rfl | rfl
      · cases inside
      · exact inside
      · cases inside
      · split at inside
        · exact inside
        · cases inside
  | withdraw id errand =>
      refine .inr ?_
      have withdrawn := (keys_unregister m.hub.registry id).2
      simp only [Job.exec, RegistryJob.exec] at member
      split at member
      · rename_i w registry taken
        rw [taken] at withdrawn
        have here := withdrawn w rfl
        cases errand <;> simp [RegistryJob.afterWithdrawal, Plan.stopWithdrawn, Job.logRegistry] at member
        all_goals grind [Job.keys, Job.mention, Job.call]
      · cases errand <;> simp [RegistryJob.afterWithdrawal] at member
        all_goals grind [Job.keys]
  | _ => cases engages

theorem keys_hub (m : Machine) (t : ThreadId) (job : HubJob) : ∀ j ∈ ((Job.hub job).exec m t).2, ∀ key ∈ j.keys,
    key ∈ (Job.hub job).keys ∨ key ∈ m.hub.registry.keys := by
  intro j member key inside
  have engages := keys_source (leads_exec m t (.hub job) j member) (List.ne_nil_of_mem inside)
  cases job with
  | add adapter =>
      refine .inl ?_
      simp only [Job.exec, HubJob.exec] at member
      split at member
      · simp only [List.mem_cons, List.not_mem_nil, or_false] at member
        rcases member with rfl | rfl <;> cases inside
      · simp only [Plan.register, List.mem_cons, List.not_mem_nil, or_false] at member
        rcases member with rfl | rfl
        · cases inside
        · exact inside
  | claimNew id adapter =>
      refine .inr ?_
      have claimed : ∀ key ∈ (if m.hub.running then m.hub.registry.beginStart id else (none, m.hub.registry)).1,
          key ∈ m.hub.registry.keys := by
        split
        · exact keys_beginStart m.hub.registry id
        · exact fun _ none => by cases none
      simp only [Job.exec, HubJob.exec] at member
      cases taken : (if m.hub.running then m.hub.registry.beginStart id else (none, m.hub.registry)).1 with
      | none =>
          simp [taken] at member
          rcases member with rfl | rfl | rfl <;> cases inside
      | some key' =>
          have here := claimed key' (by rw [taken]; rfl)
          simp [taken, Plan.runAdapter] at member
          grind [Job.keys, Job.mention, Job.call]
  | claimAll =>
      refine .inr ?_
      have claimed := keys_beginStartAll m.hub.registry
      simp [Job.exec, HubJob.exec, Plan.runAdapter] at member
      grind [Job.keys, Job.mention, Job.call, Job.logHub]
  | finishStart id adapter =>
      refine .inl ?_
      simp only [Job.exec, HubJob.exec] at member
      split at member
      · cases member
      · simp only [List.mem_cons, List.not_mem_nil, or_false] at member
        rcases member with rfl | rfl
        · cases inside
        · exact inside
  | scan =>
      refine .inr ?_
      have adapters := keys_adapters m.hub.registry
      simp [Job.exec, HubJob.exec] at member
      grind [Job.keys, Job.call, Job.logHub]
  | request r handle =>
      refine .inr ?_
      have owners := keys_owners m.hub.registry handle
      simp only [Job.exec, HubJob.exec] at member
      split at member
      · simp only [List.mem_cons, List.not_mem_nil, or_false] at member
        rcases member with rfl | rfl <;> cases inside
      · simp at member
        grind [Job.keys, Job.call, Job.logHub]
  | findOwners c data device =>
      refine .inr ?_
      have owners := keys_owners m.hub.registry device.handle
      simp only [Job.exec, HubJob.exec] at member
      split at member
      · cases List.mem_singleton.mp member
        cases inside
      · rename_i first others listed
        rw [listed] at owners
        cases List.mem_singleton.mp member
        grind [Job.keys]
  | forward c data device first others =>
      refine .inl ?_
      simp only [Job.exec, HubJob.exec, List.mem_cons, List.not_mem_nil, or_false] at member
      rcases member with rfl | rfl | rfl
      · cases inside
      · cases List.mem_singleton.mp inside
        have owner := preferred_mem m.cast device.deviceType first others
        simpa [Job.keys] using List.mem_map_of_mem (f := Prod.snd) owner
      · cases inside
  | _ => cases engages

theorem keys_next (m : Machine) (t : ThreadId) (job : Job) (names : ∀ named ∈ m.cast.adapterNames, m.cast.knows named.2) :
    ∀ j ∈ (job.exec m t).2, ∀ key ∈ j.keys,
      key ∈ job.keys ∨ key ∈ m.hub.registry.keys ∨ (job.exec m t).1.cast.knows key := by
  intro j member key inside
  have engages := keys_source (leads_exec m t job j member) (List.ne_nil_of_mem inside)
  cases job with
  | perform op => exact .inr (.inr (keys_performs m t op names j member key inside))
  | registry job => exact (keys_registry m t job j member key inside).imp_right .inl
  | hub job => exact (keys_hub m t job j member key inside).imp_right .inl
  | _ => cases engages

theorem fresh_keys {agenda : List Job} (fresh : Fresh config u agenda) : ∀ j ∈ agenda, j.keys = [] :=
  fresh.all (fun _ => rfl) rfl (fun _ => rfl) (fun _ _ => rfl) rfl fun _ => rfl

theorem Peopled.carry (before : Peopled m) (run : Run config hooks past m) (agenda : m.agenda t = job :: later) :
    Peopled (m.carry t job later) := by
  have grows := grows_exec m t job
  have cast : (m.carry t job later).cast = (job.exec m t).1.cast := rfl
  have mine : ∀ key ∈ job.keys, m.cast.knows key := before.agendas t job (agenda ▸ List.mem_cons_self ..)
  refine ⟨?_, ?_, ?_⟩ <;> rw [cast]
  · intro named member
    rcases grows.names named member with old | new
    · exact grows.knows (before.names named old)
    · exact new
  · intro key member
    rw [hub_carry, keys_alike (alike_exec m t job)] at member
    rcases keys_revises m.hub.registry job key member with old | here
    · exact grows.knows (before.registered key old)
    · exact grows.knows (mine key here)
  · intro u j member key inside
    rcases run.carried agenda member with ⟨_, next⟩ | ⟨old, _⟩ | ⟨_, fresh, begins⟩
    · rcases keys_next m t job before.names j next key inside with here | listed | new
      · exact grows.knows (mine key here)
      · exact grows.knows (before.registered key listed)
      · exact new
    · exact grows.knows (before.agendas u j old key inside)
    · rw [fresh_keys fresh j begins] at inside
      cases inside

theorem Peopled.begins (before : Peopled m) {m' : Machine} (cast : m'.cast = m.cast) (hub : m'.hub = m.hub)
    (agendas : ∀ u, m'.agenda u = m.agenda u ∨ (m.agenda u = [] ∧ Fresh config u (m'.agenda u))) : Peopled m' where
  names := by
    rw [cast]
    exact before.names
  registered := by
    rw [cast, hub]
    exact before.registered
  agendas u j member key inside := by
    rw [cast]
    rcases agendas u with same | ⟨_, fresh⟩
    · exact before.agendas u j (same ▸ member) key inside
    · rw [fresh_keys fresh j member] at inside
      cases inside

theorem Run.peopled (run : Run config hooks past m) : Peopled m := by
  refine Run.induct (G := fun _ => True) (P := fun _ m => Peopled m) ?construct ?assemble ?call ?client ?carry ?unwind run
    fun _ _ => trivial
  case construct => exact .nobody rfl rfl fun u => initial_begins (fun _ _ fresh => fresh_keys fresh) hooks .construction u
  case assemble => exact .nobody rfl rfl fun u => initial_begins (fun _ _ fresh => fresh_keys fresh) hooks .assembly u
  case call => exact fun op _ before idle => before.begins rfl rfl (call_fresh config idle op)
  case client => exact fun name op _ before => before.begins rfl rfl (client_fresh config _ name op)
  case carry => exact fun run before agenda _ _ _ => before.carry run agenda
  case unwind =>
    intro past m t later run before agenda _
    refine ⟨?_, ?_, ?_⟩ <;> rw [cast_unwind]
    · exact before.names
    · rw [registry_unwind]
      exact before.registered
    · intro u j member key inside
      rcases mem_unwind agenda member with old | ⟨d, caught⟩
      · exact before.agendas u j old key inside
      · simp only [ParticipantJob.afterPanic, List.mem_cons, List.not_mem_nil, or_false] at caught
        rcases caught with rfl | rfl <;> cases inside

theorem Run.called_known (run : Run config hooks past m) {id : AdapterId} {call : AdapterCall}
    (agenda : m.agenda t = .participant (.call id k call) :: later) : ∃ a, m.cast.adapter? k = some a := by
  refine (knows_iff m.cast k).mp (run.peopled.agendas t (.participant (.call id k call)) ?_ k (List.mem_singleton.mpr rfl))
  rw [agenda]
  exact List.mem_cons_self ..

end TransportHub

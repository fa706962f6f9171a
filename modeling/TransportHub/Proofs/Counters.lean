import TransportHub.Proofs.RegistryCalls
import TransportHub.Proofs.Unchanged
/-!
Counters: what comes of a number that is counted in a word, and which ids a registry hands out. The ids are 1, 2, 3
and so on as a word counts them; fewer registrations than a word has values have ids of their own.
-/

set_option autoImplicit false

namespace TransportHub

open Registry (StartCall Alike)

variable {config : Config} {hooks : List Hook} {past : List Moment} {m : Machine} {t : ThreadId} {job : Job} {later : List Job}
  {x : Moment} {n : Nat}

-- The first numbers that a counter of 32 bits gives out.
def words (n : Nat) : List Nat := (List.range' 1 n).map (· % UInt32.size)

theorem words_succ (n : Nat) : words (n + 1) = words n ++ [(n + 1) % UInt32.size] := by
  rw [words, List.range'_1_concat, List.map_append, Nat.add_comm 1]
  rfl

theorem words_few (few : n < UInt32.size) : words n = List.range' 1 n := by
  refine (List.map_congr_left fun i member => Nat.mod_eq_of_lt ?_).trans (List.map_id' _)
  obtain ⟨j, bound, rfl⟩ := List.mem_range'.mp member
  omega

theorem words_many (many : UInt32.size < n) : ¬ (words n).Nodup := by
  intro distinct
  have length : (words n).length = n := by rw [words, List.length_map, List.length_range']
  have number : ∀ i (known : i < (words n).length), (words n)[i] = (1 + i) % UInt32.size := fun i known => by
    simp only [words, List.getElem_map, List.getElem_range', Nat.one_mul]
  have again : (words n)[0] = (words n)[UInt32.size] := by rw [number, number]; rfl
  exact List.pairwise_iff_getElem.mp distinct 0 UInt32.size (by omega) (by omega) (by decide) again

theorem toNat_succ (w : UInt32) : (w + 1).toNat = (w.toNat + 1) % UInt32.size := UInt32.toNat_add w 1

-- What a job makes of the registry, but for how far the starts have come.
def Job.revises (r : Registry) : Job → Registry
  | .registry (.reserve ..) => r.reserve
  | .registry (.enrol id deviceType adapter) => r.enrol id deviceType adapter
  | .registry (.withdraw id _) => (r.unregister id).2
  | .registry (.store id devices) => (r.replaceDevices id devices).2
  | _ => r

def Job.startCall (h : Hub) : Job → Option StartCall
  | .perform (.registry (.beginStart id)) => if h.owned then some (.begin id) else none
  | .perform (.registry .beginStartAll) => if h.owned then some .beginAll else none
  | .perform (.registry (.finishStart id)) => if h.owned then some (.finish id) else none
  | .hub (.claimNew id _) => if h.running then some (.begin id) else none
  | .hub .claimAll => some .beginAll
  | .hub (.finishStart id _) => some (.finish id)
  | _ => none

theorem registry_perform (m : Machine) (op : Op) : (m.perform op).1.hub.registry =
    ((Job.perform op).startCall m.hub).elim m.hub.registry (·.applied m.hub.registry) := by
  cases op with
  | registry op =>
      cases owned : m.hub.owned <;> cases op <;> simp only [Machine.perform, Machine.performOwned, Job.startCall, owned] <;> rfl
  | deviceLane op | dataLanes op =>
      cases op <;> simp only [Machine.perform, Machine.performOwned, DeviceLaneOp.exec, DataLanesOp.exec] <;> (repeat' split) <;> rfl
  | register | terminate =>
      simp only [Machine.perform, Machine.performOwned]
      split <;> rfl
  | _ => exact (state_perform m _ rfl).registry

theorem registry_job (m : Machine) (job : RegistryJob) : (job.exec m).1.hub.registry = (Job.registry job).revises m.hub.registry := by
  cases job with
  | withdraw id errand =>
      simp only [RegistryJob.exec, Job.revises]
      cases found : m.hub.registry.find? id with
      | none =>
          rw [Registry.unregister_unknown found]
          simp only [Registry.unregister, found, Option.map_none]
      | some e =>
          simp only [Registry.unregister, found, Option.map_some]
          rfl
  | replace id devices errand =>
      simp only [RegistryJob.exec, Job.revises]
      split <;> rfl
  | _ => rfl

theorem registry_exec (m : Machine) (t : ThreadId) (job : Job) : (job.exec m t).1.hub.registry =
    (job.startCall m.hub).elim (job.revises m.hub.registry) (·.applied m.hub.registry) := by
  have same : job.registers = false → (∀ op, job = .perform op → op.managed = true) →
      (job.exec m t).1.hub.registry = m.hub.registry := fun apart managed => (steady_exec m t job managed).registry apart
  cases job with
  | perform op => exact registry_perform m op
  | registry job => exact registry_job m job
  | hub job =>
      cases job with
      | claimNew id adapter =>
          simp only [Job.exec, HubJob.exec, Job.startCall]
          split <;> rfl
      | laneStarted =>
          simp only [Job.exec, HubJob.exec]
          split <;> rfl
      | claimAll | finishStart | halt => rfl
      | _ => exact same rfl fun _ none => by cases none
  | _ => exact same rfl fun _ none => by cases none

theorem startCall_revises (some : job.startCall m.hub ≠ none) : job.revises m.hub.registry = m.hub.registry := by
  cases job with
  | registry => exact absurd rfl some
  | _ => rfl

theorem alike_exec (m : Machine) (t : ThreadId) (job : Job) :
    (job.revises m.hub.registry).Alike (job.exec m t).1.hub.registry := by
  rw [registry_exec]
  cases made : job.startCall m.hub with
  | none => exact .rfl _
  | some call =>
      rw [startCall_revises (by simp [made])]
      exact Registry.alike_applied _ call

-- The id that a step hands out.
def Moment.issues (x : Moment) : Option AdapterId :=
  match x.job with
  | .registry (.reserve ..) => some x.machine.hub.registry.nextId
  | _ => none

def issued (past : List Moment) : List AdapterId := past.filterMap Moment.issues

theorem issued_snoc : issued (past ++ [x]) = issued past ++ x.issues.toList := by
  rw [issued, List.filterMap_append]
  cases here : x.issues <;> simp [issued, here]

theorem issues_aside (hands : ∀ deviceType adapter errand, job ≠ .registry (.reserve deviceType adapter errand)) :
    Moment.issues ⟨m, t, job, later⟩ = none := by
  cases job with
  | registry job => cases job <;> first | rfl | exact absurd rfl (hands _ _ _)
  | _ => rfl

theorem lastId_aside (hands : ∀ deviceType adapter errand, job ≠ .registry (.reserve deviceType adapter errand)) (m : Machine)
    (t : ThreadId) : (job.exec m t).1.hub.registry.lastId = m.hub.registry.lastId := by
  rw [(alike_exec m t job).lastId]
  cases job with
  | registry job => cases job <;> first | rfl | exact absurd rfl (hands _ _ _)
  | _ => rfl

theorem Run.issued_words (run : Run config hooks past m) : issued past = (words (issued past).length).map AdapterId.mk ∧
    m.hub.registry.lastId.toNat = (issued past).length % UInt32.size := by
  refine Run.induct (G := fun _ => True) (P := fun past m => issued past = (words (issued past).length).map AdapterId.mk ∧
      m.hub.registry.lastId.toNat = (issued past).length % UInt32.size)
    ?construct ?assemble ?call ?client ?carry ?unwind run fun _ _ => trivial
  case construct | assemble => exact ⟨rfl, rfl⟩
  case call => exact fun _ _ before _ => before
  case client => exact fun _ _ _ before => before
  case carry =>
    intro past m t job later _ before _ _ _ _
    obtain ⟨given, last⟩ := before
    rw [issued_snoc, hub_carry]
    by_cases hands : ∃ deviceType adapter errand, job = .registry (.reserve deviceType adapter errand)
    · obtain ⟨deviceType, adapter, errand, rfl⟩ := hands
      have next : (m.hub.registry.lastId + 1).toNat = ((issued past).length + 1) % UInt32.size := by
        rw [toNat_succ, last, Nat.mod_add_mod]
      have issues : (Moment.issues ⟨m, t, .registry (.reserve deviceType adapter errand), later⟩).toList =
          [⟨((issued past).length + 1) % UInt32.size⟩] := congrArg (fun n => [AdapterId.mk n]) next
      refine ⟨?_, ?_⟩
      · rw [issues, List.length_append, List.length_singleton, words_succ, List.map_append, ← given]
        rfl
      · rw [List.length_append]
        exact next
    · have aside : ∀ deviceType adapter errand, job ≠ .registry (.reserve deviceType adapter errand) :=
        fun _ _ _ same => hands ⟨_, _, _, same⟩
      rw [issues_aside aside, lastId_aside aside, Option.toList_none, List.append_nil]
      exact ⟨given, last⟩
  case unwind =>
    intro past m t later _ before _ _
    have none : issued (past ++ [⟨m, t, .panic, later⟩]) = issued past := issued_snoc.trans (List.append_nil _)
    rcases hub_unwind m t later with hub | hub <;> rw [none, hub] <;> exact before

theorem Run.issued_ascending (run : Run config hooks past m) (few : (issued past).length < UInt32.size) :
    (issued past).Pairwise fun a b => a.val < b.val := by
  rw [run.issued_words.1, words_few few, List.pairwise_map]
  exact List.pairwise_lt_range'

-- The bound is sharp: after that many registrations an id comes back.
theorem Run.issued_again (run : Run config hooks past m) (many : UInt32.size < (issued past).length) : ¬ (issued past).Nodup := by
  intro distinct
  rw [run.issued_words.1] at distinct
  exact words_many many ((List.pairwise_map.mp distinct).imp fun apart same => apart (congrArg AdapterId.mk same))

def Moment.counted (x : Moment) : Prop :=
  x.issues ≠ none → x.machine.hub.registry.lastId.toNat + 1 < UInt32.size

theorem Run.counted (run : Run config hooks past m) (few : (issued past).length < UInt32.size) : ∀ x ∈ past, x.counted := by
  intro x member issues
  obtain ⟨earlier, ⟨rest, rfl⟩, reached, _⟩ := run.reached member
  obtain ⟨id, here⟩ := Option.ne_none_iff_exists'.mp issues
  have more : (issued (earlier ++ [x] ++ rest)).length = (issued earlier).length + 1 + (issued rest).length := by
    rw [issued, List.filterMap_append, List.length_append]
    change (issued (earlier ++ [x])).length + _ = _
    rw [issued_snoc, here]
    simp [issued]
  rw [reached.issued_words.2, Nat.mod_eq_of_lt (by omega)]
  omega

end TransportHub

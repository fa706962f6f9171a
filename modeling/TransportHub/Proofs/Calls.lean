import TransportHub.Proofs.Replies
/-!
Calls: what a thread does from the beginning of a call to its end. Meanwhile other threads take their turns and
clients join; none of them touches what the thread has left to do, nor the answer that it got last.
-/

set_option autoImplicit false

namespace TransportHub

variable {config : Config} {hooks : List Hook} {past more : List Moment} {start m m' : Machine} {t u : ThreadId}
  {job : Job} {later plan left rest : List Job} {x : Moment} {r : Reply}

-- A thread carries out a plan and all that it leads to, before it comes to what it had to do later. The moments
-- are those of all threads; what is left of the call comes last.
inductive Calling (t : ThreadId) (later : List Job) (start : Machine) (plan : List Job) : List Moment → Machine →
    List Job → Prop where
  | begin (agenda : start.agenda t = plan ++ later) (busy : plan ≠ []) : Calling t later start plan [] start plan
  | own {more : List Moment} {m : Machine} {job : Job} {rest : List Job} (calling : Calling t later start plan more m (job :: rest))
      (notPanic : job ≠ .panic) (enabled : job.enabled m t = true) :
      Calling t later start plan (more ++ [⟨m, t, job, rest ++ later⟩]) (m.carry t job (rest ++ later)) ((job.exec m t).2 ++ rest)
  | other {more : List Moment} {m m' : Machine} {left behind : List Job} {u : ThreadId} {job : Job}
      (calling : Calling t later start plan more m left) (apart : u ≠ t) (agenda : m.agenda u = job :: behind)
      (went : m.step? u = some m') : Calling t later start plan (more ++ [⟨m, u, job, behind⟩]) m' left
  | call {more : List Moment} {m : Machine} {left : List Job} (op : Op) (calling : Calling t later start plan more m left)
      (apart : t ≠ .caller) (idle : m.agenda .caller = []) : Calling t later start plan more (m.beginWith [.perform op]) left
  | client {more : List Moment} {m : Machine} {left : List Job} (name : String) (op : Op)
      (calling : Calling t later start plan more m left) : Calling t later start plan more (m.spawn name [.perform op]).2 left

def ownTurns (t : ThreadId) (more : List Moment) : List Moment := more.filter (·.thread = t)

theorem mem_ownTurns : x ∈ ownTurns t more ↔ x ∈ more ∧ x.thread = t := by
  simp [ownTurns]

theorem ownTurns_own : ownTurns t (more ++ [⟨m, t, job, later⟩]) = ownTurns t more ++ [⟨m, t, job, later⟩] := by
  simp [ownTurns]

theorem ownTurns_other (apart : u ≠ t) : ownTurns t (more ++ [⟨m, u, job, later⟩]) = ownTurns t more := by
  simp [ownTurns, apart]

theorem ownTurns_alone (alone : ∀ x ∈ more, x.thread = t) : ownTurns t more = more :=
  List.filter_eq_self.mpr fun x member => decide_eq_true (alone x member)

theorem Calling.placed (calling : Calling t later start plan more m left) :
    t.val < m.agendas.length ∧ m.agenda t = left ++ later := by
  induction calling with
  | begin agenda busy =>
      have some : plan ++ later ≠ [] := fun none => busy (List.append_eq_nil_iff.mp none).1
      exact ⟨known_lt (agenda_known agenda some), agenda⟩
  | own _ _ _ ih =>
      refine ⟨?_, (agenda_carry_self ih.2).trans (List.append_assoc ..).symm⟩
      rw [agendas_carry, List.length_set, List.length_append]
      exact Nat.lt_add_right _ ih.1
  | other _ apart agenda went ih =>
      rcases step_cases agenda went with ⟨rfl, rfl⟩ | ⟨_, _, rfl⟩
      · rw [agenda_unwind_other apart.symm, agendas_unwind, List.length_set]
        exact ih
      · rw [agenda_carry_old apart.symm ih.1, agendas_carry, List.length_set, List.length_append]
        exact ⟨Nat.lt_add_right _ ih.1, ih.2⟩
  | call _ _ apart _ ih =>
      rw [agenda_beginWith_other apart, agendas_beginWith, List.length_set]
      exact ih
  | client _ _ _ ih =>
      rw [agenda_client_old ih.1, agendas_spawn, List.length_append]
      exact ⟨Nat.lt_add_right _ ih.1, ih.2⟩

theorem Calling.run (calling : Calling t later start plan more m left) (run : Run config hooks past start) :
    Run config hooks (past ++ more) m := by
  induction calling with
  | begin => rwa [List.append_nil]
  | own calling notPanic enabled ih =>
      exact List.append_assoc .. ▸ ih.step calling.placed.2 (step_carry calling.placed.2 notPanic enabled)
  | other _ _ agenda went ih => exact List.append_assoc .. ▸ ih.step agenda went
  | call op _ _ idle ih => exact ih.call op idle
  | client name op _ ih => exact ih.client name op

theorem Calling.play (calling : Calling t [] start plan more m left) (turns : Nat)
    (quiet : ∀ x ∈ (m.play (List.replicate turns t)).1, (x.job matches .panic) = false) :
    Calling t [] start plan (more ++ (m.play (List.replicate turns t)).1) (m.play (List.replicate turns t)).2
      ((m.play (List.replicate turns t)).2.agenda t) := by
  have placed := calling.placed.2
  rw [List.append_nil] at placed
  induction turns generalizing more m left with
  | zero => simpa [Machine.play, placed] using calling
  | succ turns ih =>
      simp only [List.replicate_succ, Machine.play] at quiet ⊢
      split at quiet
      · rename_i job rest next agenda went
        rw [agenda] at placed
        subst placed
        rcases step_cases agenda went with ⟨rfl, rfl⟩ | ⟨notPanic, enabled, rfl⟩
        · cases quiet _ (List.mem_cons_self ..)
        · have own := calling.own notPanic enabled
          rw [List.append_nil] at own
          have played := ih own (fun x member => quiet x (List.mem_cons_of_mem _ member)) (agenda_carry_self agenda)
          rw [List.append_assoc] at played
          simpa only [agenda, went, List.singleton_append] using played
      · simpa [placed] using calling

-- Induction over the turns of the thread itself, by the answer that it has, its turns and what is left.
theorem Calling.stages {S : Reply → List Moment → List Job → Prop} {G : Moment → Prop} (begins : S (start.reply t) [] plan)
    (goes : ∀ {m own job rest}, S (m.reply t) own (job :: rest) → job ≠ .panic → job.enabled m t = true →
      m.agenda t = job :: (rest ++ later) → G ⟨m, t, job, rest ++ later⟩ →
      S ((m.carry t job (rest ++ later)).reply t) (own ++ [⟨m, t, job, rest ++ later⟩]) ((job.exec m t).2 ++ rest))
    (calling : Calling t later start plan more m left) (all : ∀ x ∈ ownTurns t more, G x) : S (m.reply t) (ownTurns t more) left := by
  induction calling with
  | begin => exact begins
  | own calling notPanic enabled ih =>
      rw [ownTurns_own] at all ⊢
      have before := ih fun x member => all x (List.mem_append_left _ member)
      exact goes before notPanic enabled calling.placed.2 (all _ (List.mem_append_right _ (List.mem_singleton.mpr rfl)))
  | other calling apart agenda went ih =>
      rw [ownTurns_other apart] at all ⊢
      have before := ih all
      rcases step_cases agenda went with ⟨rfl, rfl⟩ | ⟨_, _, rfl⟩
      · rwa [reply_unwind apart.symm]
      · rwa [reply_carry calling.placed.1 (.inl apart.symm)]
  | call _ _ apart _ ih =>
      rw [reply_beginWith apart]
      exact ih all
  | client _ _ calling ih =>
      rw [reply_client calling.placed.1]
      exact ih all

theorem Calling.reached (calling : Calling t later start plan more m left) :
    ∀ front x back, more = front ++ x :: back → x.thread = t →
    ∃ rest, Calling t later start plan front x.machine (x.job :: rest) := by
  induction calling with
  | begin => exact fun front _ _ split => absurd split.symm (List.append_ne_nil_of_right_ne_nil _ (List.cons_ne_nil _ _))
  | own calling _ _ ih =>
      intro front x back split mine
      rcases split_snoc split with ⟨rfl, rfl, _⟩ | ⟨front', _, old⟩
      · exact ⟨_, calling⟩
      · exact ih front x front' old mine
  | other _ apart _ _ ih =>
      intro front x back split mine
      rcases split_snoc split with ⟨_, rfl, _⟩ | ⟨front', _, old⟩
      · exact absurd mine apart
      · exact ih front x front' old mine
  | call _ _ _ _ ih | client _ _ _ ih => exact ih

theorem Calling.alone {α : Type} {f : Hub → Cast → α} (calling : Calling t later start plan more m left)
    (alone : ∀ x ∈ more, x.thread = t)
    (keeps : ∀ x ∈ more, f (x.job.exec x.machine t).1.hub (x.job.exec x.machine t).1.cast = f x.machine.hub x.machine.cast) :
    f m.hub m.cast = f start.hub start.cast := by
  induction calling with
  | begin => rfl
  | own _ _ _ ih =>
      have before := ih (fun x member => alone x (List.mem_append_left _ member)) fun x member =>
        keeps x (List.mem_append_left _ member)
      exact (keeps _ (List.mem_append_right _ (List.mem_singleton.mpr rfl))).trans before
  | other _ apart _ _ _ => exact absurd (alone _ (List.mem_append_right _ (List.mem_singleton.mpr rfl))) apart
  | call _ _ _ _ ih | client _ _ _ ih => exact ih alone keeps

-- No operation is hooked onto the record that is written, if one is.
def Moment.unhooked (x : Moment) : Prop := ∀ record, x.job = .log record → ∀ j ∈ (x.machine.log x.thread record).2, j = .resume

instance (x : Moment) : Decidable x.unhooked :=
  decidable_of_iff ((match x.job with
    | .log record => (x.machine.log x.thread record).2.all (· matches .resume)
    | _ => true) = true) <| by
    unfold Moment.unhooked
    cases x.job <;> simp [List.all_eq_true]
    refine forall₂_congr fun j _ => ?_
    cases j <;> simp

theorem nested_ne (op : Op) : ∃ j ∈ Job.nested op, j ≠ .resume := by
  cases op <;> exact ⟨_, List.mem_cons_self .., fun none => by cases none⟩

theorem Moment.unhooked.next {record : Log.Record} (unhooked : Moment.unhooked ⟨m, t, .log record, later⟩) :
    (m.log t record).2 = [] ∨ (m.log t record).2 = [.resume] := by
  have resumes := unhooked record rfl
  simp only [Machine.log, Machine.note] at resumes ⊢
  split
  · rename_i caller
    simp only [caller, if_true] at resumes
    refine .inr ?_
    have none : (m.hooks.map (·.notice record)).flatMap (·.1) = [] := List.eq_nil_iff_forall_not_mem.mpr fun op member => by
      obtain ⟨j, inside, other⟩ := nested_ne op
      exact other (resumes j (List.mem_append_left _ (List.mem_flatMap.mpr ⟨op, member, inside⟩)))
    exact congrArg (fun ops => ops.flatMap Job.nested ++ [Job.resume]) none
  · exact .inl rfl

-- Jobs that write, answer, wait, and take or give back a lock.
def Job.calm : Job → Bool
  | .log _ | .acquire _ | .release _ | .answer _ | .resume | .join .. => true
  | _ => false

def answerAfter (r : Reply) : List Job → Reply
  | [] => r
  | .answer reply :: rest => answerAfter reply rest
  | _ :: rest => answerAfter r rest

theorem answerAfter_silent {front : List Job} (silent : ∀ j ∈ front, ∀ reply, j ≠ .answer reply) :
    answerAfter r (front ++ rest) = answerAfter r rest := by
  induction front with
  | nil => rfl
  | cons j front ih =>
      have tail := ih fun k member => silent k (List.mem_cons_of_mem _ member)
      cases j with
      | answer reply => exact absurd rfl (silent _ (List.mem_cons_self ..) reply)
      | _ => exact tail

theorem answerAfter_cons (silent : ∀ reply, job ≠ .answer reply) : answerAfter r (job :: rest) = answerAfter r rest := by
  cases job with
  | answer reply => exact absurd rfl (silent reply)
  | _ => rfl

theorem calm_next (calm : job.calm = true) (unhooked : Moment.unhooked ⟨m, t, job, later⟩) :
    ∀ j ∈ (job.exec m t).2, j.calm = true ∧ ∀ reply, j ≠ .answer reply := by
  cases job with
  | log record =>
      rcases unhooked.next with none | one
      · simp [Job.exec, none]
      · simp [Job.exec, one, Job.calm]
  | join lane worker =>
      simp only [Job.exec]
      repeat' split
      all_goals simp [Job.calm]
  | acquire | release | answer | resume => exact fun _ none => by cases none
  | _ => cases calm

theorem calm_answerAfter (agenda : m.agenda t = job :: later) (calm : job.calm = true)
    (unhooked : Moment.unhooked ⟨m, t, job, later⟩) :
    answerAfter ((m.carry t job later).reply t) ((job.exec m t).2 ++ rest) = answerAfter (m.reply t) (job :: rest) := by
  rw [answerAfter_silent fun j member => (calm_next calm unhooked j member).2]
  by_cases answers : ∃ reply, job = .answer reply
  · obtain ⟨reply, rfl⟩ := answers
    rw [reply_answer agenda]
    rfl
  · have silent : ∀ reply, job ≠ .answer reply := fun reply same => answers ⟨reply, same⟩
    rw [reply_carry (known_lt (agenda_known agenda (List.cons_ne_nil _ _))) (.inr silent), answerAfter_cons silent]

-- The same induction for calls that no operation is hooked onto, by their decisions only: what stands between
-- them is calm. A decision may also lead out of all that, to where something else holds from then on.
theorem Calling.decisions_until {K : Reply → List Moment → List Job → Prop} {E : Reply → List Job → Prop} {G : Moment → Prop}
    (unhooked : ∀ x, G x → x.unhooked) (front back : List Job) (begins : plan = front ++ back)
      (first : (∀ j ∈ front, j.calm = true) ∧ K (answerAfter (start.reply t) front) [] back)
    (decides : ∀ {r own job rest}, K r own (job :: rest) → job.calm = false)
    (aside : ∀ {r own back x}, K r own back → x.job.calm = true → K r (own ++ [x]) back)
    (goes : ∀ {m own job rest}, K (m.reply t) own (job :: rest) → job ≠ .panic → m.agenda t = job :: (rest ++ later) →
      G ⟨m, t, job, rest ++ later⟩ → (∃ front back, (job.exec m t).2 ++ rest = front ++ back ∧ (∀ j ∈ front, j.calm = true) ∧
        K (answerAfter (m.reply t) front) (own ++ [⟨m, t, job, rest ++ later⟩]) back) ∨ E (m.reply t) ((job.exec m t).2 ++ rest))
    (beyond : ∀ {m job rest}, E (m.reply t) (job :: rest) → m.agenda t = job :: (rest ++ later) →
      E ((m.carry t job (rest ++ later)).reply t) ((job.exec m t).2 ++ rest))
    (calling : Calling t later start plan more m left) (all : ∀ x ∈ ownTurns t more, G x) :
    (∃ front back, left = front ++ back ∧ (∀ j ∈ front, j.calm = true) ∧ K (answerAfter (m.reply t) front) (ownTurns t more) back) ∨
      E (m.reply t) left := by
  refine Calling.stages (G := G) (S := fun r own left => (∃ front back, left = front ++ back ∧
    (∀ j ∈ front, j.calm = true) ∧ K (answerAfter r front) own back) ∨ E r left) (.inl ⟨front, back, begins, first⟩) ?_ calling all
  rintro m own job rest (⟨front, back, split, calm, key⟩ | escaped) notPanic _ agenda good
  · cases front with
    | nil =>
        rw [List.nil_append] at split
        subst split
        have kind := decides key
        have silent : ∀ reply, job ≠ .answer reply := fun reply same => by
          rw [same] at kind
          cases kind
        rw [reply_carry (known_lt (agenda_known agenda (List.cons_ne_nil _ _))) (.inr silent)]
        exact goes key notPanic agenda good
    | cons j front =>
        rw [List.cons_append, List.cons.injEq] at split
        obtain ⟨rfl, rfl⟩ := split
        have here := calm job (List.mem_cons_self ..)
        have unhooked := unhooked _ good
        refine .inl ⟨(job.exec m t).2 ++ front, back, (List.append_assoc ..).symm, ?_, ?_⟩
        · exact List.forall_mem_append.mpr ⟨fun k member => (calm_next here unhooked k member).1,
            fun k member => calm k (List.mem_cons_of_mem _ member)⟩
        · rw [calm_answerAfter agenda here unhooked]
          exact aside key here
  · exact .inr (beyond escaped agenda)

theorem Calling.decisions {K : Reply → List Moment → List Job → Prop} {G : Moment → Prop} (unhooked : ∀ x, G x → x.unhooked)
    (front back : List Job) (begins : plan = front ++ back)
    (first : (∀ j ∈ front, j.calm = true) ∧ K (answerAfter (start.reply t) front) [] back)
    (decides : ∀ {r own job rest}, K r own (job :: rest) → job.calm = false)
    (aside : ∀ {r own back x}, K r own back → x.job.calm = true → K r (own ++ [x]) back)
    (goes : ∀ {m own job rest}, K (m.reply t) own (job :: rest) → job ≠ .panic → m.agenda t = job :: (rest ++ later) →
      G ⟨m, t, job, rest ++ later⟩ → ∃ front back, (job.exec m t).2 ++ rest = front ++ back ∧ (∀ j ∈ front, j.calm = true) ∧
        K (answerAfter (m.reply t) front) (own ++ [⟨m, t, job, rest ++ later⟩]) back)
    (calling : Calling t later start plan more m left) (all : ∀ x ∈ ownTurns t more, G x) :
    ∃ front back, left = front ++ back ∧ (∀ j ∈ front, j.calm = true) ∧ K (answerAfter (m.reply t) front) (ownTurns t more) back :=
  (Calling.decisions_until (E := fun _ _ => False) unhooked front back begins first decides aside
    (fun key notPanic agenda good => .inl (goes key notPanic agenda good)) (fun none _ => none) calling all).resolve_right id

end TransportHub

import TransportHub.Proofs.Agenda
/-!
Replies: the last answer that each thread got, and whether the thread was ended by a panic. Only a thread
itself gets answers, and only its own panic ends it.
-/

set_option autoImplicit false

namespace TransportHub

def Thread.memo (thread : Thread) : Reply × Bool := (thread.reply, thread.panicked)

def Machine.memos (m : Machine) : List (Reply × Bool) := m.each (·.memo)

variable {config : Config} {hooks : List Hook} {past : List Moment} {m m' : Machine}
  {t u : ThreadId} {job : Job} {later : List Job}

theorem reply_eq (m : Machine) (t : ThreadId) : m.reply t = (m.memos[t.val]?.map (·.1)).getD .unit := by
  unfold Machine.reply Machine.thread? Machine.memos Machine.each
  rw [List.getElem?_map]
  cases m.threads[t.val]? <;> rfl

theorem panicked_eq (m : Machine) (t : ThreadId) : m.panicked t = (m.memos[t.val]?.map (·.2)).getD false := by
  unfold Machine.panicked Machine.thread? Machine.memos Machine.each
  rw [List.getElem?_map]
  cases m.threads[t.val]? <;> rfl

theorem length_memos (m : Machine) : m.memos.length = m.agendas.length := by
  unfold Machine.memos Machine.agendas Machine.each
  rw [List.length_map, List.length_map]

theorem memos_other (m : Machine) (t : ThreadId) (change : Thread → Thread) (different : u ≠ t) :
    (m.changeThread t change).memos[u.val]? = m.memos[u.val]? := by
  unfold Machine.changeThread Machine.memos Machine.each
  simp only [List.getElem?_map, List.getElem?_modify]
  cases m.threads[u.val]? with
  | none => rfl
  | some thread => simp [ne_val different]

@[simp] theorem memos_spawn (m : Machine) (name : String) (agenda : List Job) :
    (m.spawn name agenda).2.memos = m.memos ++ [(.unit, false)] :=
  each_spawn (f := (·.memo)) (g := fun _ => (.unit, false)) (fun _ _ => rfl) m name agenda

def More (m m' : Machine) : Prop := ∃ threads, m'.memos = m.memos ++ List.replicate threads (.unit, false)

theorem more_exec (m : Machine) (t : ThreadId) (job : Job) (apart : ∀ reply, job ≠ .answer reply) : More m (job.exec m t).1 := by
  refine ⟨(job.recruits m).length, ?_⟩
  rw [← List.map_const']
  exact each_exec (f := (·.memo)) (fun _ _ => rfl) (fun _ _ => rfl) m t job (.inl apart)

theorem memos_setAgenda (m : Machine) (t : ThreadId) (agenda : List Job) : (m.setAgenda t agenda).memos = m.memos :=
  each_changeThread m t _ fun _ => rfl

theorem memo_carry (known : u.val < m.agendas.length) (apart : u ≠ t ∨ ∀ reply, job ≠ .answer reply) :
    (m.carry t job later).memos[u.val]? = m.memos[u.val]? := by
  rw [Machine.carry, memos_setAgenda]
  by_cases answers : ∃ reply, job = .answer reply
  · obtain ⟨reply, rfl⟩ := answers
    exact memos_other m t _ (apart.resolve_right fun none => none reply rfl)
  · obtain ⟨threads, more⟩ := more_exec m t job fun reply same => answers ⟨reply, same⟩
    rw [more, List.getElem?_append_left (by rwa [length_memos])]

theorem reply_carry (known : u.val < m.agendas.length) (apart : u ≠ t ∨ ∀ reply, job ≠ .answer reply) :
    (m.carry t job later).reply u = m.reply u := by
  rw [reply_eq, reply_eq, memo_carry known apart]

theorem reply_answer {reply : Reply} (agenda : m.agenda t = .answer reply :: later) :
    (m.carry t (.answer reply) later).reply t = reply := by
  have known := known_lt (agenda_known agenda (List.cons_ne_nil _ _))
  have bound : t.val < m.threads.length := by
    unfold Machine.agendas Machine.each at known
    rwa [List.length_map] at known
  rw [reply_eq, Machine.carry, memos_setAgenda]
  simp [Job.exec, Machine.changeThread, Machine.memos, Machine.each, Thread.memo, bound]

theorem memo_unwind (different : u ≠ t) : (m.unwind t later).memos[u.val]? = m.memos[u.val]? := by
  have before : (if Machine.abandons later then (HubJob.detach.exec (m.giveBackAll t) t).1 else m.giveBackAll t).memos =
      m.memos := by
    split <;> rfl
  unfold Machine.unwind
  cases Machine.caught? later with
  | some agenda => simp only [memos_setAgenda, before]
  | none => simp only [memos_other _ _ _ different, before]

theorem reply_unwind (different : u ≠ t) : (m.unwind t later).reply u = m.reply u := by
  rw [reply_eq, reply_eq, memo_unwind different]

theorem reply_beginWith (different : u ≠ .caller) (jobs : List Job) : (m.beginWith jobs).reply u = m.reply u := by
  rw [reply_eq, reply_eq, Machine.beginWith, memos_other _ _ _ different]

theorem reply_client (known : u.val < m.agendas.length) (name : String) (agenda : List Job) :
    (m.spawn name agenda).2.reply u = m.reply u := by
  rw [reply_eq, reply_eq, memos_spawn, List.getElem?_append_left (by rwa [length_memos])]

end TransportHub

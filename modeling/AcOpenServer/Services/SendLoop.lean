import AcOpenServer.Library.Trace
import AcOpenServer.Tcp

namespace AcOpenServer
open Library
set_option autoImplicit true

/-- Where `SendAsync` stands: not called yet, in the head of its loop, awaiting a task, or ended,
one way or the other. -/
inductive SendTask where
  | notStarted
  | running
  | awaiting (task : WriteTask)
  | ranToCompletion
  | faulted
  deriving DecidableEq, Repr

namespace SendTask

def IsCompleted (task : SendTask) : Prop := task = .ranToCompletion ∨ task = .faulted

instance (task : SendTask) : Decidable task.IsCompleted := inferInstanceAs (Decidable (_ ∨ _))

/-- How many tasks have been taken from the queue and not been awaited to their end. -/
def outstanding : SendTask → Nat
  | .awaiting _ => 1
  | _ => 0

/-- `ClientCleanup` logs an error if its task has an exception. -/
def clientCleanup (task : SendTask) : Bool := task = .faulted

theorem not_isCompleted_running : ¬ running.IsCompleted := by decide

theorem not_isCompleted_awaiting (task : WriteTask) : ¬ (awaiting task).IsCompleted := by
  intro h
  rcases h with h | h
  · cases h
  · cases h

end SendTask

/-- What a call of `Service` that queues a task, or does not, has done to a client when it ends. -/
inductive Serviced (disposedValue : σ → Bool) (sendQueue : σ → List WriteTask) (queues : Prop)
    (c c' : σ) : Prop
  | kept (disposed : disposedValue c' = disposedValue c) (queue : sendQueue c' = sendQueue c)
  | queued (task : WriteTask) (answered : queues) (disposed : disposedValue c' = disposedValue c)
      (queue : sendQueue c' = sendQueue c ++ [task])
  | disposed (disposed : disposedValue c' = true)
      (queue : (sendQueue c').length ≤ (sendQueue c).length)

/-- A client that services messages of type `ι` and queues the tasks of its sends; `Queues` says
which messages are answered so. The task of a send may also be dropped, with its exceptions:
`drops` is that task as it stands then, and `FailsUnseen` says when the send has failed. -/
structure QueueingClient (ι σ : Type) where
  service : ι → EStateM Exn σ Unit
  dispose : σ → σ
  disposedValue : σ → Bool
  sendQueue : σ → List WriteTask
  setSendQueue : List WriteTask → σ → σ
  drops : ι → σ → Option WriteTask
  Queues : ι → σ → Prop
  FailsUnseen : ι → σ → Prop
  sendQueue_set : ∀ queue c, sendQueue (setSendQueue queue c) = queue
  disposedValue_set : ∀ queue c, disposedValue (setSendQueue queue c) = disposedValue c
  disposed_dispose : ∀ c, disposedValue (dispose c) = true
  drops_iff : ∀ {e c}, drops e c = some .faulted ↔ FailsUnseen e c
  serviced_ok : ∀ {e c c'}, (service e).run c = .ok () c' →
    Serviced disposedValue sendQueue (Queues e c) c c'
  serviced_error : ∀ {e c ex c'}, (service e).run c = .error ex c' →
    Serviced disposedValue sendQueue (Queues e c) c c'

/-- A client whose tasks `OnAccepted` has started; `enqueued` counts the tasks that were ever
queued, `late` those of them that were queued after `SendAsync` had ended, `awaited` are the
outcomes of those it has awaited, and `dropped` are the tasks that were dropped. -/
structure SendSession (σ : Type) where
  client : σ
  receiving : Bool
  sendTask : SendTask
  enqueued : Nat
  late : Nat
  awaited : List WriteTask
  dropped : List WriteTask
  deriving DecidableEq, Repr

/-- A step of one of the tasks of a client, or of a task that was queued or dropped and ends. -/
inductive SendAction (ι : Type) where
  | receive (e : ι)
  | startSend
  | dequeue
  | resume
  | settle (task : WriteTask)
  | settleQueued (i : Nat) (task : WriteTask)
  | settleDropped (i : Nat) (task : WriteTask)
  | dispose

namespace SendSession

/-- `OnAccepted` has called `ReceiveAsync`, and not yet `SendAsync`. -/
def accepted (client : σ) : SendSession σ where
  client
  receiving := true
  sendTask := .notStarted
  enqueued := 0
  late := 0
  awaited := []
  dropped := []

variable (client : QueueingClient ι σ)

/-- The client after a call of `Service`, with the tasks it has queued and dropped. -/
def serviced (e : ι) (c : σ) (receiving : Bool) (s : SendSession σ) : SendSession σ :=
  let queued := (client.sendQueue c).length - (client.sendQueue s.client).length
  { s with
    client := c
    receiving
    enqueued := s.enqueued + queued
    late := if s.sendTask.IsCompleted then s.late + queued else s.late
    dropped := s.dropped ++ (client.drops e s.client).toList }

def next : SendAction ι → SendSession σ → Option (SendSession σ)
  | .receive e, s =>
    if s.receiving then
      match (client.service e).run s.client with
      | .ok _ c => some (serviced client e c true s)
      | .error _ c => some (serviced client e c false s)
    else none
  | .startSend, s =>
    if s.sendTask = .notStarted then some { s with sendTask := .running } else none
  | .dequeue, s =>
    if s.sendTask = .running then
      match client.sendQueue s.client with
      | [] => some { s with sendTask := .ranToCompletion }
      | sendTask :: queue => some { s with
          client := client.setSendQueue queue s.client
          sendTask := .awaiting sendTask }
    else none
  | .resume, s =>
    match s.sendTask with
    | .awaiting .completed => some { s with
        sendTask := .running
        awaited := s.awaited ++ [.completed] }
    | .awaiting .faulted => some { s with
        sendTask := .faulted
        awaited := s.awaited ++ [.faulted] }
    | _ => none
  | .settle task, s =>
    if s.sendTask = .awaiting .pending then some { s with sendTask := .awaiting task } else none
  | .settleQueued i task, s =>
    if (client.sendQueue s.client)[i]? = some .pending then
      some { s with
        client := client.setSendQueue ((client.sendQueue s.client).set i task) s.client }
    else none
  | .settleDropped i task, s =>
    if s.dropped[i]? = some .pending then
      some { s with
        client := if task = .completed then client.dispose s.client else s.client
        dropped := s.dropped.set i task }
    else none
  | .dispose, s => some { s with client := client.dispose s.client }

/-- No queued send is abandoned: while the client is in use, `SendAsync` does not end with tasks
in the queue, nothing is queued after it has ended, every other task that was queued has been
awaited, a send that failed is reported, and none fails whose task was dropped. -/
structure Awaits (s : SendSession σ) : Prop where
  drained : client.disposedValue s.client = false → s.sendTask.IsCompleted →
    client.sendQueue s.client = []
  punctual : s.late = 0
  accounted : client.disposedValue s.client = false →
    s.enqueued = s.awaited.length + s.sendTask.outstanding + (client.sendQueue s.client).length
  reported : .faulted ∈ s.awaited → s.sendTask.clientCleanup = true
  seen : .faulted ∉ s.dropped

/-- A message that is answered with a queued send is serviced before `SendAsync` has ended, an
awaited send does not fail while others are in the queue, and no send fails whose task is
dropped. -/
def SendsInTime (a : SendAction ι) (s : SendSession σ) : Prop :=
  match a with
  | .receive e =>
    (s.sendTask.IsCompleted → ¬ client.Queues e s.client) ∧ ¬ client.FailsUnseen e s.client
  | .resume => s.sendTask = .awaiting .faulted →
    client.disposedValue s.client = true ∨ client.sendQueue s.client = []
  | .settleDropped _ task => task ≠ .faulted
  | _ => True

/-- A condition on a step that can be computed: `SendAsync` has not ended when a message is
serviced, and no send fails. -/
def early : SendAction ι → SendSession σ → Bool
  | .receive e, s => ¬ s.sendTask.IsCompleted ∧ client.drops e s.client ≠ some .faulted
  | .resume, s => s.sendTask ≠ .awaiting .faulted
  | .settleDropped _ task, _ => task ≠ .faulted
  | _, _ => true

variable {client : QueueingClient ι σ} {s t : SendSession σ} {a : SendAction ι} {c : σ}

theorem sendsInTime_of_early (h : early client a s = true) : SendsInTime client a s := by
  cases a with
  | receive e =>
    obtain ⟨hrunning, hdrops⟩ := of_decide_eq_true h
    exact ⟨fun hcompleted => (hrunning hcompleted).elim, fun hfails =>
      hdrops (client.drops_iff.2 hfails)⟩
  | resume =>
    intro hfaulted
    exact (of_decide_eq_true h hfaulted).elim
  | settleDropped i task =>
    have hne : task ≠ .faulted := of_decide_eq_true h
    exact hne
  | _ => trivial

theorem awaits_accepted (h : client.sendQueue c = []) : Awaits client (accepted c) where
  drained := fun _ _ => h
  punctual := rfl
  accounted := by
    intro _
    rw [accepted, h]
    rfl
  reported := nofun
  seen := nofun

theorem Awaits.serviced (h : Awaits client s)
    (hserviced : Serviced client.disposedValue client.sendQueue (client.Queues e s.client)
      s.client c)
    (hguard : SendsInTime client (.receive e) s) (receiving : Bool) :
    Awaits client (serviced client e c receiving s) := by
  obtain ⟨hguard, hunseen⟩ := hguard
  have hseen : .faulted ∉ s.dropped ++ (client.drops e s.client).toList := by
    rw [List.mem_append, Option.mem_toList]
    rintro (hold | hnew)
    · exact h.seen hold
    · exact hunseen (client.drops_iff.1 hnew)
  cases hserviced with
  | kept disposed queue =>
    refine ⟨?_, ?_, ?_, h.reported, hseen⟩
    · intro hopen hcompleted
      exact queue.trans (h.drained (disposed.symm.trans hopen) hcompleted)
    · simp only [SendSession.serviced, queue, Nat.sub_self, Nat.add_zero, ite_self]
      exact h.punctual
    · intro hopen
      have haccounted := h.accounted (disposed.symm.trans hopen)
      simp only [SendSession.serviced, queue, Nat.sub_self, Nat.add_zero]
      exact haccounted
  | queued task answered disposed queue =>
    have hrunning : ¬ s.sendTask.IsCompleted := fun hcompleted => hguard hcompleted answered
    refine ⟨?_, ?_, ?_, h.reported, hseen⟩
    · intro _ hcompleted
      exact (hrunning hcompleted).elim
    · simp only [SendSession.serviced, if_neg hrunning]
      exact h.punctual
    · intro hopen
      have haccounted := h.accounted (disposed.symm.trans hopen)
      simp only [SendSession.serviced, queue, List.length_append, List.length_singleton,
        Nat.add_sub_cancel_left]
      omega
  | disposed disposed queue =>
    refine ⟨?_, ?_, ?_, h.reported, hseen⟩
    · intro hopen
      cases disposed.symm.trans hopen
    · simp only [SendSession.serviced, Nat.sub_eq_zero_of_le queue, Nat.add_zero, ite_self]
      exact h.punctual
    · intro hopen
      cases disposed.symm.trans hopen

theorem Awaits.receive (h : Awaits client s) (hguard : SendsInTime client (.receive e) s)
    (hnext : next client (.receive e) s = some t) : Awaits client t := by
  rw [next] at hnext
  split at hnext
  · cases hrun : (client.service e).run s.client with
    | ok _ c =>
      rw [hrun] at hnext
      cases hnext
      exact h.serviced (client.serviced_ok hrun) hguard true
    | error ex c =>
      rw [hrun] at hnext
      cases hnext
      exact h.serviced (client.serviced_error hrun) hguard false
  · cases hnext

/-- A step of `SendAsync` that does not end it. -/
theorem Awaits.goOn {task : SendTask} {awaited : List WriteTask} (h : Awaits client s)
    (hreported : s.sendTask.clientCleanup = false)
    (hcompleted : ¬ task.IsCompleted) (hdisposed : client.disposedValue c =
      client.disposedValue s.client) (haccounted : s.enqueued =
        s.awaited.length + s.sendTask.outstanding + (client.sendQueue s.client).length →
      s.enqueued = awaited.length + task.outstanding + (client.sendQueue c).length)
    (hawaited : .faulted ∈ awaited → .faulted ∈ s.awaited) :
    Awaits client { s with client := c, sendTask := task, awaited } where
  drained := fun _ hended => (hcompleted hended).elim
  punctual := h.punctual
  accounted := fun hopen => haccounted (h.accounted (hdisposed.symm.trans hopen))
  reported := by
    intro hfaulted
    cases hreported.symm.trans (h.reported (hawaited hfaulted))
  seen := h.seen

theorem Awaits.dequeue (h : Awaits client s) (hnext : next client .dequeue s = some t) :
    Awaits client t := by
  rw [next] at hnext
  split at hnext
  · rename_i hrunning
    have hreported : s.sendTask.clientCleanup = false := by
      rw [hrunning]
      rfl
    cases hqueue : client.sendQueue s.client with
    | nil =>
      rw [hqueue] at hnext
      cases hnext
      refine ⟨fun _ _ => hqueue, h.punctual, ?_, ?_, h.seen⟩
      · intro hopen
        have haccounted := h.accounted hopen
        rw [hrunning] at haccounted
        exact haccounted
      · intro hfaulted
        cases hreported.symm.trans (h.reported hfaulted)
    | cons sendTask queue =>
      rw [hqueue] at hnext
      cases hnext
      apply h.goOn hreported
      · exact SendTask.not_isCompleted_awaiting sendTask
      · exact client.disposedValue_set queue s.client
      · intro haccounted
        rw [hrunning, hqueue] at haccounted
        rw [client.sendQueue_set]
        simp only [SendTask.outstanding, List.length_cons] at haccounted ⊢
        omega
      · intro hfaulted
        exact hfaulted
  · cases hnext

theorem Awaits.resume (h : Awaits client s) (hguard : SendsInTime client .resume s)
    (hnext : next client .resume s = some t) : Awaits client t := by
  rw [next] at hnext
  split at hnext
  · rename_i hawaiting
    cases hnext
    apply h.goOn
    · rw [hawaiting]
      rfl
    · exact SendTask.not_isCompleted_running
    · rfl
    · intro haccounted
      rw [hawaiting] at haccounted
      simp only [SendTask.outstanding, List.length_append, List.length_singleton] at haccounted ⊢
      omega
    · intro hfaulted
      rcases List.mem_append.1 hfaulted with hfaulted | hfaulted
      · exact hfaulted
      · cases List.mem_singleton.1 hfaulted
  · rename_i hawaiting
    cases hnext
    refine ⟨?_, h.punctual, ?_, fun _ => rfl, h.seen⟩
    · intro hopen _
      rcases hguard hawaiting with hdisposed | hqueue
      · cases hdisposed.symm.trans hopen
      · exact hqueue
    · intro hopen
      have haccounted := h.accounted hopen
      rw [hawaiting] at haccounted
      simp only [SendTask.outstanding, List.length_append, List.length_singleton] at haccounted ⊢
      omega
  · cases hnext

theorem Awaits.disposeClient (h : Awaits client s) :
    Awaits client { s with client := client.dispose s.client } := by
  have hdisposed := client.disposed_dispose s.client
  refine ⟨?_, h.punctual, ?_, h.reported, h.seen⟩
  · intro hopen
    cases hdisposed.symm.trans hopen
  · intro hopen
    cases hdisposed.symm.trans hopen

/-- A step in which `SendAsync` has as many tasks to await as before. -/
theorem Awaits.moveOn {task : SendTask} (h : Awaits client s)
    (hreported : s.sendTask.clientCleanup = false) (hcompleted : ¬ task.IsCompleted)
    (houtstanding : task.outstanding = s.sendTask.outstanding) :
    Awaits client { s with sendTask := task } := by
  apply h.goOn hreported hcompleted
  · rfl
  · intro haccounted
    rw [houtstanding]
    exact haccounted
  · intro hfaulted
    exact hfaulted

theorem Awaits.startSend (h : Awaits client s) (hnext : next client .startSend s = some t) :
    Awaits client t := by
  rw [next] at hnext
  split at hnext
  · rename_i hnotStarted
    cases hnext
    apply h.moveOn
    · rw [hnotStarted]
      rfl
    · exact SendTask.not_isCompleted_running
    · rw [hnotStarted]
      rfl
  · cases hnext

theorem Awaits.settle {task : WriteTask} (h : Awaits client s)
    (hnext : next client (.settle task) s = some t) : Awaits client t := by
  rw [next] at hnext
  split at hnext
  · rename_i hawaiting
    cases hnext
    apply h.moveOn
    · rw [hawaiting]
      rfl
    · exact SendTask.not_isCompleted_awaiting task
    · rw [hawaiting]
      rfl
  · cases hnext

theorem Awaits.settleQueued {i : Nat} {task : WriteTask} (h : Awaits client s)
    (hnext : next client (.settleQueued i task) s = some t) : Awaits client t := by
  rw [next] at hnext
  split at hnext
  · cases hnext
    refine ⟨?_, h.punctual, ?_, h.reported, h.seen⟩
    · intro hopen hcompleted
      rw [client.disposedValue_set] at hopen
      rw [client.sendQueue_set, h.drained hopen hcompleted, List.set_nil]
    · intro hopen
      rw [client.disposedValue_set] at hopen
      rw [client.sendQueue_set, List.length_set]
      exact h.accounted hopen
  · cases hnext

theorem Awaits.settleDropped {i : Nat} {task : WriteTask} (h : Awaits client s)
    (hguard : SendsInTime client (.settleDropped i task) s)
    (hnext : next client (.settleDropped i task) s = some t) : Awaits client t := by
  rw [next] at hnext
  split at hnext
  · cases hnext
    have hseen : .faulted ∉ s.dropped.set i task := by
      intro hfaulted
      rcases List.mem_or_eq_of_mem_set hfaulted with hfaulted | rfl
      · exact h.seen hfaulted
      · exact hguard rfl
    split
    · exact { h.disposeClient with seen := hseen }
    · exact { h with seen := hseen }
  · cases hnext

theorem Awaits.next (h : Awaits client s) (hguard : SendsInTime client a s)
    (hnext : next client a s = some t) : Awaits client t := by
  cases a with
  | receive e => exact h.receive hguard hnext
  | startSend => exact h.startSend hnext
  | dequeue => exact h.dequeue hnext
  | resume => exact h.resume hguard hnext
  | settle task => exact h.settle hnext
  | settleQueued i task => exact h.settleQueued hnext
  | settleDropped i task => exact h.settleDropped hguard hnext
  | dispose =>
    cases hnext
    exact h.disposeClient

theorem awaits_of_sendsInTime {actions : List (SendAction ι)} (hc : client.sendQueue c = [])
    (h : Trace (GuardedStepOf (SendSession.next client) (SendsInTime client)) (accepted c) actions
      s) : Awaits client s :=
  h.invariant (fun _ _ _ hs hstep => hs.next hstep.1 hstep.2) (awaits_accepted hc)

end SendSession

end AcOpenServer

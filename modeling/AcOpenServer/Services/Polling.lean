import AcOpenServer.Library.Trace
import AcOpenServer.Runtime

namespace AcOpenServer
open Library
set_option autoImplicit true

/-- A timer that is never stopped. -/
structure PeriodicTimer where
  signaled : Bool
  activeWait : Bool
  deriving DecidableEq, Repr

namespace PeriodicTimer

def new : PeriodicTimer := ⟨false, false⟩

/-- The call returns whether its task is completed already. -/
def waitForNextTickAsync : EStateM Exn PeriodicTimer Bool := do
  if (← get).activeWait then
    throw .invalidOperation
  else if (← get).signaled then
    modify fun timer => { timer with signaled := false }
    return true
  else
    modify fun timer => { timer with activeWait := true }
    return false

def signal (timer : PeriodicTimer) : PeriodicTimer := { timer with signaled := true }

/-- The caller whose task was completed by a tick takes its result. -/
def getResult (timer : PeriodicTimer) : PeriodicTimer :=
  { timer with signaled := false, activeWait := false }

end PeriodicTimer

/-- Where a call of `PollClient` stands: it awaits a tick, is about to check the client, or has
ended, one way or the other. -/
inductive PollTask where
  | waiting
  | ticked
  | returned
  | failed
  deriving DecidableEq, Repr

/-- A client that was accepted, with what `IsConnected` reads: whether it was disposed of, whether
its receive loop has closed the `TcpClient`, and whether the user has hung up. -/
structure PolledClient where
  disposedValue : Bool
  closed : Bool
  hungUp : Bool
  pollTask : PollTask
  deriving DecidableEq, Repr

/-- `IsConnected` throws if the socket is gone but the client was not disposed of. -/
def PolledClient.isConnected (c : PolledClient) : Option Bool :=
  if c.disposedValue then some false
  else if c.closed then none
  else some !c.hungUp

/-- What the services keep for polling. -/
structure PollService where
  pollTimer : PeriodicTimer
  clients : List PolledClient
  deriving DecidableEq, Repr

inductive PollAction where
  | accepted
  | tick
  | resume (i : Nat)
  | poll (i : Nat)
  | dispose (i : Nat)
  | close (i : Nat)
  | hangUp (i : Nat)
  deriving DecidableEq, Repr

namespace PollService

def new : PollService := ⟨.new, []⟩

/-- The call of `WaitForNextTickAsync` in the head of the loop. -/
def await (timer : PeriodicTimer) : PollTask × PeriodicTimer :=
  match PeriodicTimer.waitForNextTickAsync.run timer with
  | .ok true timer => (.ticked, timer)
  | .ok false timer => (.waiting, timer)
  | .error _ timer => (.failed, timer)

/-- `OnAccepted`, in which `PollClient` runs up to its first wait. -/
def onAccepted (s : PollService) : PollService where
  pollTimer := (await s.pollTimer).2
  clients := s.clients ++ [⟨false, false, false, (await s.pollTimer).1⟩]

/-- The body of the loop, and the next call in its head. -/
def pollClient (c : PolledClient) (timer : PeriodicTimer) : PollTask × PeriodicTimer :=
  match c.isConnected with
  | some true => await timer
  | some false => (.returned, timer)
  | none => (.failed, timer)

def next : PollAction → PollService → Option PollService
  | .accepted, s => some s.onAccepted
  | .tick, s => some { s with pollTimer := s.pollTimer.signal }
  | .resume i, s => do
    let c ← s.clients[i]?
    if c.pollTask = .waiting ∧ s.pollTimer.signaled then
      some ⟨s.pollTimer.getResult, s.clients.set i { c with pollTask := .ticked }⟩
    else none
  | .poll i, s => do
    let c ← s.clients[i]?
    if c.pollTask = .ticked then
      some ⟨(pollClient c s.pollTimer).2,
        s.clients.set i { c with pollTask := (pollClient c s.pollTimer).1 }⟩
    else none
  | .dispose i, s => do
    let c ← s.clients[i]?
    some { s with clients := s.clients.set i { c with disposedValue := true } }
  | .close i, s => do
    let c ← s.clients[i]?
    some { s with clients := s.clients.set i { c with closed := true } }
  | .hangUp i, s => do
    let c ← s.clients[i]?
    some { s with clients := s.clients.set i { c with hungUp := true } }

end PollService

/-- The two services have the same code. -/
def AuthService.next : PollAction → PollService → Option PollService := PollService.next

def LoginService.next : PollAction → PollService → Option PollService := PollService.next

namespace PollService

/-- At most one wait is outstanding, no loop has failed and each connected client has one that
goes on. -/
structure Polls (s : PollService) : Prop where
  outstanding : ∀ (i j : Nat) (a b : PolledClient),
    s.clients[i]? = some a → s.clients[j]? = some b →
    a.pollTask = .waiting → b.pollTask = .waiting → i = j
  running : ∀ c ∈ s.clients, c.pollTask ≠ .failed
  polled : ∀ c ∈ s.clients, c.isConnected = some true →
    c.pollTask = .waiting ∨ c.pollTask = .ticked

/-- The loop of a client awaits a tick, or will do so again. -/
def UsesTimer (c : PolledClient) : Prop :=
  c.pollTask = .waiting ∨ c.pollTask = .ticked ∧ c.isConnected = some true

/-- A client is accepted only while no other one uses the timer, and polled only if its receive
loop has not closed it before it was disposed of. -/
def OneAtATime : PollAction → PollService → Prop
  | .accepted, s => ∀ c ∈ s.clients, ¬ UsesTimer c
  | .poll i, s => ∀ c, s.clients[i]? = some c → c.isConnected ≠ none
  | _, _ => True

/-- What holds if clients are accepted one at a time. -/
structure OneUser (s : PollService) : Prop where
  active : s.pollTimer.activeWait = true → ∃ c ∈ s.clients, c.pollTask = .waiting
  one : ∀ (i j : Nat) (a b : PolledClient), s.clients[i]? = some a → s.clients[j]? = some b →
    UsesTimer a → UsesTimer b → i = j
  running : ∀ c ∈ s.clients, c.pollTask ≠ .failed
  polled : ∀ c ∈ s.clients, c.isConnected = some true →
    c.pollTask = .waiting ∨ c.pollTask = .ticked

variable {s : PollService} {timer : PeriodicTimer} {c c' : PolledClient} {i : Nat}

theorem oneUser_new : OneUser new where
  active := nofun
  one := by
    intro i j a b ha
    cases ha
  running := nofun
  polled := nofun

theorem OneUser.polls (h : OneUser s) : Polls s where
  outstanding i j a b ha hb hwa hwb := h.one i j a b ha hb (.inl hwa) (.inl hwb)
  running := h.running
  polled := h.polled

theorem await_cases (h : timer.activeWait = false) :
    (await timer).1 = .waiting ∨
      (await timer).1 = .ticked ∧ (await timer).2.activeWait = false := by
  obtain ⟨signaled, activeWait⟩ := timer
  cases h
  cases signaled with
  | false => exact .inl rfl
  | true => exact .inr ⟨rfl, rfl⟩

theorem OneUser.not_active (h : OneUser s) (hidle : ∀ c ∈ s.clients, c.pollTask ≠ .waiting) :
    s.pollTimer.activeWait = false := by
  rw [Bool.eq_false_iff]
  intro hactive
  obtain ⟨c, hc, hwaiting⟩ := h.active hactive
  exact hidle c hc hwaiting

theorem OneUser.onAccepted (h : OneUser s) (hfree : ∀ c ∈ s.clients, ¬ UsesTimer c) :
    OneUser s.onAccepted := by
  have hidle := h.not_active fun c hc hwaiting => hfree c hc (.inl hwaiting)
  have hnew : (await s.pollTimer).1 = .waiting ∨ (await s.pollTimer).1 = .ticked :=
    (await_cases hidle).imp_right And.left
  have hlast : ∀ {k a}, s.onAccepted.clients[k]? = some a → UsesTimer a → k = s.clients.length := by
    intro k a hk ha
    by_cases hlt : k < s.clients.length
    · rw [PollService.onAccepted, List.getElem?_append_left hlt] at hk
      exact (hfree a (List.mem_of_getElem? hk) ha).elim
    · obtain ⟨hlt', _⟩ := List.getElem?_eq_some_iff.1 hk
      rw [PollService.onAccepted, List.length_append, List.length_singleton] at hlt'
      omega
  constructor
  · intro hactive
    rcases await_cases hidle with hwaiting | ⟨_, hinactive⟩
    · exact ⟨_, List.mem_append_right _ (List.mem_singleton.2 rfl), hwaiting⟩
    · cases hactive.symm.trans hinactive
  · intro i j a b ha hb hua hub
    rw [hlast ha hua, hlast hb hub]
  · intro c hc
    rcases List.mem_append.1 hc with hc | hc
    · exact h.running c hc
    · cases List.mem_singleton.1 hc
      rcases hnew with hnew | hnew
      · exact hnew ▸ nofun
      · exact hnew ▸ nofun
  · intro c hc hconnected
    rcases List.mem_append.1 hc with hc | hc
    · exact h.polled c hc hconnected
    · cases List.mem_singleton.1 hc
      exact hnew

theorem OneUser.set (h : OneUser s) (hc : s.clients[i]? = some c)
    (huses : UsesTimer c' → UsesTimer c) (hrunning : c'.pollTask ≠ .failed)
    (hpolled : c'.isConnected = some true → c'.pollTask = .waiting ∨ c'.pollTask = .ticked)
    (hactive : timer.activeWait = true → c'.pollTask = .waiting ∨
      s.pollTimer.activeWait = true ∧ c.pollTask ≠ .waiting) :
    OneUser ⟨timer, s.clients.set i c'⟩ := by
  obtain ⟨hi, _⟩ := List.getElem?_eq_some_iff.1 hc
  have hself : (s.clients.set i c')[i]? = some c' := by rw [List.getElem?_set_self hi]
  have hold : ∀ {k : Nat} {a}, (s.clients.set i c')[k]? = some a → UsesTimer a →
      ∃ b, s.clients[k]? = some b ∧ UsesTimer b := by
    intro k a hk ha
    by_cases hik : i = k
    · subst hik
      cases hself.symm.trans hk
      exact ⟨c, hc, huses ha⟩
    · rw [List.getElem?_set_ne hik] at hk
      exact ⟨a, hk, ha⟩
  constructor
  · intro hactive'
    rcases hactive hactive' with hwaiting | ⟨hbefore, hne⟩
    · exact ⟨c', List.mem_of_getElem? hself, hwaiting⟩
    · obtain ⟨d, hd, hwaiting⟩ := h.active hbefore
      obtain ⟨k, hk⟩ := List.getElem?_of_mem hd
      have hik : i ≠ k := by
        rintro rfl
        cases hc.symm.trans hk
        exact hne hwaiting
      rw [← List.getElem?_set_ne hik] at hk
      exact ⟨d, List.mem_of_getElem? hk, hwaiting⟩
  · intro j k a b ha hb hua hub
    obtain ⟨a', ha', hua'⟩ := hold ha hua
    obtain ⟨b', hb', hub'⟩ := hold hb hub
    exact h.one j k a' b' ha' hb' hua' hub'
  · intro d hd
    rcases List.mem_or_eq_of_mem_set hd with hd | rfl
    · exact h.running d hd
    · exact hrunning
  · intro d hd
    rcases List.mem_or_eq_of_mem_set hd with hd | rfl
    · exact h.polled d hd
    · exact hpolled

theorem OneUser.setConnection (h : OneUser s) (hc : s.clients[i]? = some c)
    (htask : c'.pollTask = c.pollTask)
    (hconnected : c'.isConnected = some true → c.isConnected = some true) :
    OneUser { s with clients := s.clients.set i c' } := by
  have hmem := List.mem_of_getElem? hc
  apply h.set hc
  · rintro (hwaiting | ⟨hticked, htrue⟩)
    · exact .inl (htask.symm.trans hwaiting)
    · exact .inr ⟨htask.symm.trans hticked, hconnected htrue⟩
  · rw [htask]
    exact h.running c hmem
  · rw [htask]
    exact fun htrue => h.polled c hmem (hconnected htrue)
  · intro hactive
    by_cases hwaiting : c.pollTask = .waiting
    · exact .inl (htask.trans hwaiting)
    · exact .inr ⟨hactive, hwaiting⟩

theorem isConnected_eq_some_true : c.isConnected = some true ↔
    c.disposedValue = false ∧ c.closed = false ∧ c.hungUp = false := by
  simp only [PolledClient.isConnected]
  split
  · rename_i hdisposed
    exact iff_of_false nofun fun h => Bool.eq_false_iff.1 h.1 hdisposed
  · rename_i hdisposed
    split
    · rename_i hclosed
      exact iff_of_false nofun fun h => Bool.eq_false_iff.1 h.2.1 hclosed
    · rename_i hclosed
      simp only [Option.some.injEq, Bool.not_eq_true', Bool.eq_false_iff.2 hdisposed,
        Bool.eq_false_iff.2 hclosed, true_and]

theorem OneUser.resume (h : OneUser s) (hc : s.clients[i]? = some c)
    (hwaiting : c.pollTask = .waiting) :
    OneUser ⟨s.pollTimer.getResult, s.clients.set i { c with pollTask := .ticked }⟩ := by
  apply h.set hc
  · exact fun _ => .inl hwaiting
  · exact nofun
  · exact fun _ => .inr rfl
  · exact nofun

/-- Polling a client: the loop of one that is connected is the only user of the timer. -/
theorem OneUser.poll (h : OneUser s) (hc : s.clients[i]? = some c) (hticked : c.pollTask = .ticked)
    (hopen : c.isConnected ≠ none) :
    OneUser ⟨(pollClient c s.pollTimer).2,
      s.clients.set i { c with pollTask := (pollClient c s.pollTimer).1 }⟩ := by
  have hne : c.pollTask ≠ .waiting := hticked ▸ nofun
  cases hconnected : c.isConnected with
  | none => exact (hopen hconnected).elim
  | some connected =>
    cases connected with
    | false =>
      have hreturned : pollClient c s.pollTimer = (.returned, s.pollTimer) := by
        rw [pollClient, hconnected]
      rw [hreturned]
      apply h.set hc
      · rintro (hwaiting | ⟨hticked', _⟩)
        · cases hwaiting
        · cases hticked'
      · exact nofun
      · intro htrue
        cases hconnected.symm.trans htrue
      · exact fun hactive => .inr ⟨hactive, hne⟩
    | true =>
      have hawait : pollClient c s.pollTimer = await s.pollTimer := by
        rw [pollClient, hconnected]
      have hidle := h.not_active fun d hd hwaiting => by
        obtain ⟨k, hk⟩ := List.getElem?_of_mem hd
        cases h.one i k c d hc hk (.inr ⟨hticked, hconnected⟩) (.inl hwaiting)
        cases hc.symm.trans hk
        exact hne hwaiting
      rw [hawait]
      apply h.set hc
      · exact fun _ => .inr ⟨hticked, hconnected⟩
      · rcases await_cases hidle with hwaiting | ⟨hticked', _⟩
        · exact hwaiting ▸ nofun
        · exact hticked' ▸ nofun
      · exact fun _ => (await_cases hidle).imp_right And.left
      · intro hactive
        rcases await_cases hidle with hwaiting | ⟨_, hinactive⟩
        · exact .inl hwaiting
        · cases hactive.symm.trans hinactive

theorem OneUser.next {action : PollAction} {t : PollService} (h : OneUser s)
    (hguard : OneAtATime action s) (hnext : PollService.next action s = some t) : OneUser t := by
  cases action with
  | accepted =>
    cases hnext
    exact h.onAccepted hguard
  | tick =>
    cases hnext
    exact ⟨h.active, h.one, h.running, h.polled⟩
  | resume i =>
    obtain ⟨c, hc, hstep⟩ := Option.bind_eq_some_iff.1 hnext
    split at hstep
    · rename_i hready
      cases hstep
      exact h.resume hc hready.1
    · cases hstep
  | poll i =>
    obtain ⟨c, hc, hstep⟩ := Option.bind_eq_some_iff.1 hnext
    split at hstep
    · rename_i hticked
      cases hstep
      exact h.poll hc hticked (hguard c hc)
    · cases hstep
  | dispose i =>
    obtain ⟨c, hc, hstep⟩ := Option.bind_eq_some_iff.1 hnext
    cases hstep
    refine h.setConnection hc ?_ fun htrue => ?_
    · rfl
    · cases (isConnected_eq_some_true.1 htrue).1
  | close i =>
    obtain ⟨c, hc, hstep⟩ := Option.bind_eq_some_iff.1 hnext
    cases hstep
    refine h.setConnection hc ?_ fun htrue => ?_
    · rfl
    · cases (isConnected_eq_some_true.1 htrue).2.1
  | hangUp i =>
    obtain ⟨c, hc, hstep⟩ := Option.bind_eq_some_iff.1 hnext
    cases hstep
    refine h.setConnection hc ?_ fun htrue => ?_
    · rfl
    · cases (isConnected_eq_some_true.1 htrue).2.2

theorem oneUser_of_trace {actions : List PollAction}
    (h : Trace (GuardedStepOf PollService.next OneAtATime) new actions s) : OneUser s :=
  h.invariant (fun _ _ _ hs hstep => hs.next hstep.1 hstep.2) oneUser_new

/-- The timer of a service is never awaited twice at once, and every connected client is polled,
if each client is accepted while no other one uses the timer. -/
theorem polls_of_oneAtATime {actions : List PollAction} :
    (Trace (GuardedStepOf AuthService.next OneAtATime) new actions s → Polls s) ∧
      (Trace (GuardedStepOf LoginService.next OneAtATime) new actions s → Polls s) :=
  ⟨fun h => (oneUser_of_trace h).polls, fun h => (oneUser_of_trace h).polls⟩

/-- A client is accepted when the loop of another one, which was disposed of, has returned. -/
theorem polls_second_client :
    Polls ⟨⟨false, true⟩, [⟨true, false, false, .returned⟩, ⟨false, false, false, .waiting⟩]⟩ ∧
      Polls ⟨⟨false, true⟩,
        [⟨true, false, false, .returned⟩, ⟨false, false, false, .waiting⟩]⟩ := by
  have hunused : ∀ c ∈ [(⟨true, false, false, .returned⟩ : PolledClient)], ¬ UsesTimer c := by
    intro c hc
    cases List.mem_singleton.1 hc
    rintro (hwaiting | ⟨hticked, _⟩)
    · cases hwaiting
    · cases hticked
  have hsecond : Trace (GuardedStepOf PollService.next OneAtATime)
      ⟨⟨false, false⟩, [⟨true, false, false, .returned⟩]⟩ [.accepted, .tick, .resume 1, .poll 1]
      ⟨⟨false, true⟩, [⟨true, false, false, .returned⟩, ⟨false, false, false, .waiting⟩]⟩ := by
    refine .cons ⟨hunused, rfl⟩ (.cons ⟨trivial, rfl⟩ (.cons ⟨trivial, rfl⟩
      (.cons ⟨?_, rfl⟩ .nil)))
    intro c hc
    cases hc
    exact nofun
  have hboth : Trace (GuardedStepOf PollService.next OneAtATime) new
      [.accepted, .tick, .resume 0, .dispose 0, .poll 0, .accepted, .tick, .resume 1, .poll 1]
      ⟨⟨false, true⟩, [⟨true, false, false, .returned⟩, ⟨false, false, false, .waiting⟩]⟩ := by
    refine .cons ⟨nofun, rfl⟩ (.cons ⟨trivial, rfl⟩ (.cons ⟨trivial, rfl⟩ (.cons ⟨trivial, rfl⟩
      (.cons ⟨?_, rfl⟩ hsecond))))
    intro c hc
    cases hc
    exact nofun
  exact ⟨polls_of_oneAtATime.1 hboth, polls_of_oneAtATime.2 hboth⟩

/-- The loop of the second of two clients fails at once. -/
theorem second_client_not_polled :
    ¬ ((∀ actions s, Trace (StepOf AuthService.next) new actions s → Polls s) ∧
      ∀ actions s, Trace (StepOf LoginService.next) new actions s → Polls s) := by
  rintro ⟨h, _⟩
  have hpolls := h [.accepted, .accepted] _ (.cons rfl (.cons rfl .nil))
  exact hpolls.running ⟨false, false, false, .failed⟩ (by decide) rfl

end PollService

end AcOpenServer

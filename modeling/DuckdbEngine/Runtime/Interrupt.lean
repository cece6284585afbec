/-
Killing a pushed-down SELECT.

DuckDB keeps one interrupt flag for a connection.  A thread that kills a session
sets `thd->killed` and calls `DuckdbThdContext::interrupt`, which raises the flag
only while `m_interruptible` is set; the session sets and resets
`m_interruptible` around every pushed-down query.  The two threads share the
flag, `m_interruptible`, `thd->killed` and the mutex that guards all four
functions of the context.

Both threads are cut into their single accesses to the shared state, so that an
interleaving is a list of actions, each of which lets one thread make its next
access; a thread that waits for the mutex makes no progress.  A kill that has
reached `interrupt` is seen by the query that runs or follows, and no interrupt
is left for what the session runs outside of queries (`kill_seen_and_contained`).
-/
import DuckdbEngine.Lib.Since

namespace DuckdbEngine.Interrupt

inductive Party where
  | session
  | killer
deriving DecidableEq

/-- What the session does next. -/
inductive SessionPc where
  | idle
  /-- A COMMIT, a ROLLBACK or a flush of the appenders runs in DuckDB. -/
  | other
  -- `begin_interruptible`
  | beginLock
  | beginClear
  | beginOpen
  | beginUnlock
  -- `connection.Submit`
  | submit
  -- `interrupt_if_killed`
  | checkLock
  | checkTest
  | checkInterrupt
  | checkUnlock
  | fetching
  -- `end_interruptible`, of a query for which `begin_interruptible` was called or not
  | endLock (begun : Bool)
  | endClose (begun : Bool)
  | endClear
  | endUnlock
deriving DecidableEq

/-- What the killing thread does next: set `thd->killed`, or go on in `interrupt`. -/
inductive KillerPc where
  | idle
  | interruptLock
  | interruptTest
  | interruptSet
  | interruptUnlock
deriving DecidableEq

structure State where
  /-- Who holds `m_interrupt_mutex`. -/
  owner : Option Party
  /-- `m_interruptible`. -/
  interruptible : Bool
  /-- The interrupt flag of the DuckDB connection. -/
  interrupted : Bool
  /-- `thd->killed`. -/
  killed : Bool
  session : SessionPc
  killer : KillerPc
deriving DecidableEq

def State.init : State := ⟨none, false, false, false, .idle, .idle⟩

inductive Act where
  /-- A pushed-down query begins; `unsafeQuote` says that its text is refused before it
  reaches DuckDB. -/
  | query (unsafeQuote : Bool)
  /-- A COMMIT, a ROLLBACK or a flush begins. -/
  | other
  /-- The session makes its next access. -/
  | resume
  /-- The session fetches a chunk; DuckDB may take notice of an interrupt and drop it. -/
  | fetch (drops : Bool)
  /-- `end_scan`, or the destructor of the handler, is called. -/
  | endScan
  /-- The statement is over and the server takes the kill back. -/
  | resetKilled
  /-- The killing thread begins a kill or makes its next access. -/
  | kill
deriving DecidableEq

namespace State

/-- The session takes the mutex and goes on at `pc`, or waits. -/
def sessionLock (s : State) (pc : SessionPc) : State :=
  if s.owner = none then { s with owner := some .session, session := pc } else s

def sessionUnlock (s : State) (pc : SessionPc) : State :=
  { s with owner := none, session := pc }

/-- The next access of the session in the middle of a call. -/
def resume (s : State) : State :=
  match s.session with
  | .idle | .fetching => s
  | .other => { s with session := .idle }
  | .beginLock => s.sessionLock .beginClear
  | .beginClear => { s with interrupted := false, session := .beginOpen }
  | .beginOpen => { s with interruptible := true, session := .beginUnlock }
  | .beginUnlock => s.sessionUnlock .submit
  -- DuckDB drops a pending interrupt when a query starts
  | .submit => { s with interrupted := false, session := .checkLock }
  | .checkLock => s.sessionLock .checkTest
  | .checkTest =>
      if s.interruptible && s.killed then { s with session := .checkInterrupt }
      else { s with session := .checkUnlock }
  | .checkInterrupt => { s with interrupted := true, session := .checkUnlock }
  | .checkUnlock => s.sessionUnlock .fetching
  | .endLock begun => s.sessionLock (.endClose begun)
  | .endClose _ => { s with interruptible := false, session := .endClear }
  | .endClear => { s with interrupted := false, session := .endUnlock }
  | .endUnlock => s.sessionUnlock .idle

/-- The next access of the killing thread. -/
def kill (s : State) : State :=
  match s.killer with
  | .idle => { s with killed := true, killer := .interruptLock }
  | .interruptLock =>
      if s.owner = none then { s with owner := some .killer, killer := .interruptTest } else s
  | .interruptTest =>
      if s.interruptible then { s with killer := .interruptSet }
      else { s with killer := .interruptUnlock }
  | .interruptSet => { s with interrupted := true, killer := .interruptUnlock }
  | .interruptUnlock => { s with owner := none, killer := .idle }

/-- An action that the session or the killing thread cannot take changes nothing. -/
def step (s : State) : Act → State
  -- the handler has kept the context, so its destructor calls `end_interruptible` all the same
  | .query unsafeQuote =>
      if s.session = .idle then
        { s with session := if unsafeQuote then .endLock false else .beginLock }
      else s
  | .other => if s.session = .idle then { s with session := .other } else s
  | .resume => s.resume
  | .fetch drops =>
      if s.session = .fetching then { s with interrupted := s.interrupted && !drops } else s
  | .endScan => if s.session = .fetching then { s with session := .endLock true } else s
  -- a kill and its reset exclude each other by a mutex of the server
  | .resetKilled => if s.session = .idle ∧ s.killer = .idle then { s with killed := false } else s
  | .kill => s.kill

end State

/-! ### What happens at a step -/

/-- A call of `interrupt` is finished. -/
def InterruptReturns (s : State) (a : Act) : Prop := a = .kill ∧ s.killer = .interruptUnlock

/-- The kill is taken back. -/
def KillReset (s : State) (a : Act) : Prop :=
  a = .resetKilled ∧ s.session = .idle ∧ s.killer = .idle

/-- The query is submitted. -/
def Submits (s : State) (a : Act) : Prop := a = .resume ∧ s.session = .submit

/-- The interrupt flag is set after the step. -/
def InterruptSeen (s : State) (a : Act) : Prop := (s.step a).interrupted = true

/-! ### The invariant -/

namespace SessionPc

/-- The session holds the mutex. -/
def locked : SessionPc → Bool
  | beginClear | beginOpen | beginUnlock | checkTest | checkInterrupt | checkUnlock
  | endClose _ | endClear | endUnlock => true
  | _ => false

/-- The session has set `m_interruptible` and not reset it yet. -/
def opened : SessionPc → Bool
  | beginUnlock | submit | checkLock | checkTest | checkInterrupt | checkUnlock | fetching => true
  | endLock begun | endClose begun => begun
  | _ => false

/-- The session has looked at `thd->killed` after the submission. -/
def checked : SessionPc → Bool
  | checkUnlock | fetching => true
  | endLock begun | endClose begun => begun
  | _ => false

/-- Between the two accesses that set `m_interruptible` and clear the interrupt at the end. -/
def inWindow : SessionPc → Bool
  | endClear => true
  | pc => pc.opened

lemma opened_of_checked {pc : SessionPc} (h : pc.checked = true) : pc.opened = true := by
  cases pc <;> simp_all [checked, opened]

lemma inWindow_of_opened {pc : SessionPc} (h : pc.opened = true) : pc.inWindow = true := by
  cases pc <;> simp_all [inWindow, opened]

end SessionPc

/-- The killing thread holds the mutex. -/
def KillerPc.locked : KillerPc → Bool
  | interruptTest | interruptSet | interruptUnlock => true
  | _ => false

/-- The invariant: `ran` says that `interrupt` has returned since the last reset, and
`seen` that the flag has been up since the last submission. -/
structure Inv (s : State) (ran seen : Prop) : Prop where
  session_owns : s.owner = some .session ↔ s.session.locked = true
  killer_owns : s.owner = some .killer ↔ s.killer.locked = true
  interruptible : s.interruptible = s.session.opened
  inWindow : s.interrupted = true → s.session.inWindow = true
  opened : s.killer = .interruptSet → s.session.opened = true
  killed : s.killer ≠ .idle → s.killed = true
  killed_of_ran : ran → s.killed = true
  seen_of_ran : s.session.checked = true → ran → seen
  seen_of_unlock : s.session.checked = true → s.killer = .interruptUnlock → seen

lemma inv_init : Inv .init False False := by
  constructor <;> simp [State.init, SessionPc.locked, KillerPc.locked, SessionPc.opened]

namespace Inv

variable {s : State} {ran seen : Prop} {pc pc' : SessionPc}

/-- The mutex is held by at most one of the two. -/
lemma exclusive (h : Inv s ran seen) (hs : s.session.locked = true) : s.killer.locked = false := by
  have howner := h.session_owns.2 hs
  by_contra hk
  have := h.killer_owns.2 (by simpa using hk)
  simp [howner] at this

lemma mono {ran' seen' : Prop} (h : Inv s ran seen) (hran : ran' → ran) (hseen : seen → seen') :
    Inv s ran' seen' :=
  { h with
    killed_of_ran := fun hr => h.killed_of_ran (hran hr)
    seen_of_ran := fun hc hr => hseen (h.seen_of_ran hc (hran hr))
    seen_of_unlock := fun hc hk => hseen (h.seen_of_unlock hc hk) }

/-! #### The session -/

/-- The session goes on at `pc'` without touching the mutex or `m_interruptible`, and leaves
the flag at `b`. -/
lemma move (h : Inv s ran seen) (hpc : s.session = pc) {b : Bool} (hlocked : pc'.locked = pc.locked)
    (hopened : pc'.opened = pc.opened) (hb : b = true → pc'.inWindow = true)
    (hchecked : pc'.checked = true → pc.checked = true) :
    Inv { s with interrupted := b, session := pc' } ran seen := by
  subst hpc
  exact {
    session_owns := by rw [hlocked]; exact h.session_owns
    killer_owns := h.killer_owns
    interruptible := by rw [hopened]; exact h.interruptible
    inWindow := hb
    opened := by rw [hopened]; exact h.opened
    killed := h.killed
    killed_of_ran := h.killed_of_ran
    seen_of_ran := fun hc => h.seen_of_ran (hchecked hc)
    seen_of_unlock := fun hc => h.seen_of_unlock (hchecked hc) }

/-- The mutex passes between the session and nobody, and all else stays. -/
lemma sessionOwner (h : Inv s ran seen) (hpc : s.session = pc) {owner : Option Party}
    (hlocked : owner = some .session ↔ pc'.locked = true) (hkiller : owner ≠ some .killer)
    (hfree : s.owner ≠ some .killer) (hopened : pc'.opened = pc.opened)
    (hwindow : pc'.inWindow = pc.inWindow) (hchecked : pc'.checked = pc.checked) :
    Inv { s with owner := owner, session := pc' } ran seen := by
  subst hpc
  exact {
    session_owns := hlocked
    killer_owns := iff_of_false hkiller fun hk => hfree (h.killer_owns.2 hk)
    interruptible := by rw [hopened]; exact h.interruptible
    inWindow := by rw [hwindow]; exact h.inWindow
    opened := by rw [hopened]; exact h.opened
    killed := h.killed
    killed_of_ran := h.killed_of_ran
    seen_of_ran := by rw [hchecked]; exact h.seen_of_ran
    seen_of_unlock := by rw [hchecked]; exact h.seen_of_unlock }

lemma sessionLock (h : Inv s ran seen) (hpc : s.session = pc) (hlocked : pc'.locked = true)
    (hopened : pc'.opened = pc.opened) (hwindow : pc'.inWindow = pc.inWindow)
    (hchecked : pc'.checked = pc.checked) : Inv (s.sessionLock pc') ran seen := by
  unfold State.sessionLock
  split
  · next hfree =>
      exact h.sessionOwner hpc (by simp [hlocked]) (by simp) (by simp [hfree]) hopened hwindow
        hchecked
  · exact h

lemma sessionUnlock (h : Inv s ran seen) (hpc : s.session = pc) (hs : pc.locked = true)
    (hlocked : pc'.locked = false) (hopened : pc'.opened = pc.opened)
    (hwindow : pc'.inWindow = pc.inWindow) (hchecked : pc'.checked = pc.checked) :
    Inv (s.sessionUnlock pc') ran seen := by
  have howner := h.session_owns.2 (hpc ▸ hs)
  exact h.sessionOwner hpc (by simp [hlocked]) (by simp) (by simp [howner]) hopened hwindow hchecked

/-- With the mutex in hand the session sets or resets `m_interruptible`. -/
lemma setInterruptible (h : Inv s ran seen) (hpc : s.session = pc) {b : Bool}
    (hs : pc.locked = true) (hlocked : pc'.locked = true) (hb : b = pc'.opened)
    (hwindow : pc'.inWindow = true) (hchecked : pc'.checked = false) :
    Inv { s with interruptible := b, session := pc' } ran seen where
  session_owns := iff_of_true (h.session_owns.2 (hpc ▸ hs)) hlocked
  killer_owns := h.killer_owns
  interruptible := hb
  inWindow := fun _ => hwindow
  opened := by
    intro hk
    have := h.exclusive (hpc ▸ hs)
    simp [show s.killer = .interruptSet from hk, KillerPc.locked] at this
  killed := h.killed
  killed_of_ran := h.killed_of_ran
  seen_of_ran := by simp [hchecked]
  seen_of_unlock := by simp [hchecked]

/-- The session has looked at `thd->killed` and leaves the flag at `b`: a kill that has been
made, or is under way, was there to be seen. -/
lemma checkDone (h : Inv s ran seen) (hpc : s.session = pc) {seen' : Prop} {b : Bool}
    (hs : pc.locked = true) (hopened : pc.opened = true) (hseen : s.killed = true → seen') :
    Inv { s with interrupted := b, session := .checkUnlock } ran seen' where
  session_owns := iff_of_true (h.session_owns.2 (hpc ▸ hs)) rfl
  killer_owns := h.killer_owns
  interruptible := by rw [h.interruptible, hpc, hopened]; rfl
  inWindow := fun _ => rfl
  opened := fun _ => rfl
  killed := h.killed
  killed_of_ran := h.killed_of_ran
  seen_of_ran := fun _ hr => hseen (h.killed_of_ran hr)
  seen_of_unlock := fun _ hk => hseen (h.killed (by simp [show s.killer = _ from hk]))

/-- The session goes on in the middle of a call other than the submission. -/
lemma resume (h : Inv s ran seen) (hpc : s.session = pc) (hne : pc ≠ .submit) :
    Inv s.resume ran (s.resume.interrupted = true ∨ seen) := by
  cases pc <;> simp only [State.resume, hpc]
  case submit => exact absurd rfl hne
  case checkTest =>
    split
    · refine mono ?_ id Or.inr
      exact h.move hpc rfl rfl (fun _ => rfl) nofun
    · next hno =>
        -- `m_interruptible` is set here, so it is `thd->killed` that was not
        refine h.checkDone hpc rfl rfl fun hkilled => ?_
        simp [h.interruptible, hpc, hkilled, SessionPc.opened] at hno
  case checkInterrupt => exact h.checkDone hpc rfl rfl fun _ => Or.inl trivial
  all_goals refine mono ?_ id Or.inr
  case idle | fetching => exact h
  case beginLock | checkLock | endLock => exact h.sessionLock hpc rfl rfl rfl rfl
  case beginUnlock | checkUnlock | endUnlock => exact h.sessionUnlock hpc rfl rfl rfl rfl rfl
  case beginClear | endClear => exact h.move hpc rfl rfl nofun nofun
  case other =>
    have hout : ¬ s.interrupted = true := fun hi => by
      simpa [hpc, SessionPc.inWindow, SessionPc.opened] using h.inWindow hi
    exact h.move hpc rfl rfl (fun hi => absurd hi hout) nofun
  case beginOpen | endClose => exact h.setInterruptible hpc rfl rfl rfl rfl rfl

/-- The submission: nothing is asked about the flag until the session has looked at
`thd->killed`. -/
lemma submit (h : Inv s ran seen) (hpc : s.session = .submit) : Inv s.resume ran False := by
  simp only [State.resume, hpc]
  have h' : Inv { s with interrupted := false, session := .checkLock } ran seen :=
    h.move hpc rfl rfl nofun nofun
  exact { h' with
    seen_of_ran := nofun
    seen_of_unlock := nofun }

/-! #### The killing thread -/

/-- The mutex passes between the killing thread and nobody, and all else stays. -/
lemma killerOwner (h : Inv s ran seen) {owner : Option Party} {pc : KillerPc}
    (hlocked : owner = some .killer ↔ pc.locked = true) (hsession : owner ≠ some .session)
    (hfree : s.owner ≠ some .session) (hset : pc ≠ .interruptSet) (hunlock : pc ≠ .interruptUnlock)
    (hkilled : s.killed = true) : Inv { s with owner := owner, killer := pc } ran seen :=
  { h with
    session_owns := iff_of_false hsession fun hs => hfree (h.session_owns.2 hs)
    killer_owns := hlocked
    opened := fun hpc => absurd hpc hset
    killed := fun _ => hkilled
    seen_of_unlock := fun _ hpc => absurd hpc hunlock }

/-- The killing thread goes on inside `interrupt` with the mutex in hand. -/
lemma killerMove (h : Inv s ran seen) {pc : KillerPc} (hs : s.killer.locked = true)
    (hlocked : pc.locked = true) (hopened : pc = .interruptSet → s.interruptible = true)
    (hclosed : pc = .interruptUnlock → s.interruptible = false) :
    Inv { s with killer := pc } ran seen :=
  { h with
    killer_owns := iff_of_true (h.killer_owns.2 hs) hlocked
    opened := fun hpc => h.interruptible ▸ hopened hpc
    killed := fun _ => h.killed (by rintro hidle; simp [hidle, KillerPc.locked] at hs)
    seen_of_unlock := by
      intro hc hpc
      have := SessionPc.opened_of_checked hc
      simp [← h.interruptible, hclosed hpc] at this }

/-- The killing thread sets `thd->killed` or goes on in `interrupt`. -/
lemma kill {pc : KillerPc} (h : Inv s ran seen) (hpc : s.killer = pc)
    (hne : pc ≠ .interruptUnlock) : Inv s.kill ran (s.kill.interrupted = true ∨ seen) := by
  cases pc <;> simp only [State.kill, hpc]
  case interruptUnlock => exact absurd rfl hne
  case interruptSet =>
    have hopened := h.opened hpc
    exact { h with
      killer_owns := iff_of_true (h.killer_owns.2 (by rw [hpc]; rfl)) rfl
      inWindow := fun _ => SessionPc.inWindow_of_opened hopened
      opened := nofun
      killed := fun _ => h.killed (by simp [hpc])
      seen_of_ran := fun _ _ => Or.inl trivial
      seen_of_unlock := fun _ _ => Or.inl trivial }
  all_goals refine mono ?_ id Or.inr
  case idle =>
    exact { h with
      killer_owns := by simpa [hpc, KillerPc.locked] using h.killer_owns
      opened := nofun
      killed := fun _ => rfl
      killed_of_ran := fun _ => rfl
      seen_of_unlock := nofun }
  case interruptLock =>
    split
    · next hfree =>
        exact h.killerOwner (by simp [KillerPc.locked]) (by simp) (by simp [hfree]) nofun nofun
          (h.killed (by simp [hpc]))
    · exact h
  case interruptTest =>
    have hs : s.killer.locked = true := by rw [hpc]; rfl
    split
    · next hopen => exact h.killerMove hs rfl (fun _ => hopen) nofun
    · next hclosed => exact h.killerMove hs rfl nofun (fun _ => by simpa using hclosed)

/-- The killing thread returns from `interrupt`. -/
lemma interruptReturns (h : Inv s ran seen) (hpc : s.killer = .interruptUnlock) :
    Inv s.kill True seen := by
  simp only [State.kill, hpc]
  have hkilled := h.killed (by simp [hpc])
  have howner : s.owner = some .killer := h.killer_owns.2 (by rw [hpc]; rfl)
  have h' : Inv { s with owner := none, killer := .idle } ran seen :=
    h.killerOwner (by simp [KillerPc.locked]) nofun (by simp [howner]) nofun nofun hkilled
  exact { h' with
    killed_of_ran := fun _ => hkilled
    seen_of_ran := fun hc _ => h.seen_of_unlock hc hpc }

/-! #### Every step -/

/-- The session begins something, or fetches, or comes to the end of a query. -/
lemma start (h : Inv s ran seen) {a : Act} (ha : a ≠ .resume ∧ a ≠ .kill ∧ a ≠ .resetKilled) :
    Inv (s.step a) ran seen := by
  have hout (hidle : s.session = .idle) : ¬ s.interrupted = true := fun hi => by
    simpa [hidle, SessionPc.inWindow, SessionPc.opened] using h.inWindow hi
  cases a with
  | resume | kill | resetKilled => simp at ha
  | query unsafeQuote =>
      simp only [State.step]
      split
      · next hidle =>
          -- both ways to begin are outside of the window
          cases unsafeQuote <;>
            exact h.move hidle rfl rfl (fun hi => absurd hi (hout hidle)) nofun
      · exact h
  | other =>
      simp only [State.step]
      split
      · next hidle => exact h.move hidle rfl rfl (fun hi => absurd hi (hout hidle)) nofun
      · exact h
  | fetch drops =>
      simp only [State.step]
      split
      · next hpc => exact h.move rfl rfl rfl (fun _ => by rw [hpc]; rfl) id
      · exact h
  | endScan =>
      simp only [State.step]
      split
      · next hpc => exact h.move hpc rfl rfl (fun _ => rfl) id
      · exact h

/-- The state changes together with what has happened so far. -/
lemma step (h : Inv s ran seen) (a : Act) :
    Inv (s.step a) (InterruptReturns s a ∨ (ran ∧ ¬ KillReset s a))
      (InterruptSeen s a ∨ (seen ∧ ¬ Submits s a)) := by
  have hran (ha : a ≠ .kill) : InterruptReturns s a ∨ (ran ∧ ¬ KillReset s a) → ran :=
    Or.rec (fun hret => absurd hret.1 ha) And.left
  have hseen (ha : a ≠ .resume) (hs : seen) : InterruptSeen s a ∨ (seen ∧ ¬ Submits s a) :=
    Or.inr ⟨hs, fun hsub => ha hsub.1⟩
  cases a with
  | resume =>
      by_cases hpc : s.session = .submit
      · exact (h.submit hpc).mono (hran nofun) False.elim
      · exact (h.resume rfl hpc).mono (hran nofun)
          (Or.imp id fun hs => ⟨hs, fun hsub => hpc hsub.2⟩)
  | kill =>
      by_cases hpc : s.killer = .interruptUnlock
      · exact (h.interruptReturns hpc).mono (fun _ => trivial) (hseen nofun)
      · exact (h.kill rfl hpc).mono (Or.rec (fun hret => absurd hret.2 hpc) And.left)
          (Or.imp id fun hs => ⟨hs, fun hsub => nomatch hsub.1⟩)
  | resetKilled =>
      simp only [State.step]
      split
      · next hidle =>
          have hno : ¬ (InterruptReturns s .resetKilled ∨ (ran ∧ ¬ KillReset s .resetKilled)) := by
            rintro (hret | ⟨-, hreset⟩)
            · exact nomatch hret.1
            · exact hreset ⟨rfl, hidle⟩
          exact { h with
            killed := fun hk => absurd hidle.2 hk
            killed_of_ran := fun hr => absurd hr hno
            seen_of_ran := fun _ hr => absurd hr hno
            seen_of_unlock := fun hc hk => hseen nofun (h.seen_of_unlock hc hk) }
      · exact h.mono (hran nofun) (hseen nofun)
  | query | other | fetch | endScan =>
      exact (h.start (by simp)).mono (hran nofun) (hseen nofun)

end Inv

/-- What holds after every interleaving. -/
lemma inv_run (as : List Act) :
    Inv (StepRun.run State.step .init as)
      (StepRun.Since State.step InterruptReturns KillReset .init as)
      (StepRun.Since State.step InterruptSeen Submits .init as) :=
  StepRun.run_inv_since (I := Inv) (fun _ a _ _ hs => hs.step a) inv_init as

/-- For every interleaving: if `interrupt` has returned since the last reset when the session is
about to close the window of a query, then the interrupt flag has been up since the submission of
that query; and it is down wherever the session is outside of the window. -/
theorem kill_seen_and_contained (as : List Act) :
    ((StepRun.run State.step .init as).session = .endClose true →
      StepRun.Since State.step InterruptReturns KillReset .init as →
        StepRun.Since State.step InterruptSeen Submits .init as) ∧
    ((StepRun.run State.step .init as).session.inWindow = false →
      (StepRun.run State.step .init as).interrupted = false) := by
  have h := inv_run as
  constructor
  · intro hpc hran
    exact h.seen_of_ran (by rw [hpc]; rfl) hran
  · intro hout
    by_contra hi
    simp [h.inWindow (by simpa using hi)] at hout

/-- A kill that comes before the query, whose interrupt the submission would have dropped. -/
def earlyKill : List Act :=
  List.replicate 4 .kill ++ .query false :: List.replicate 9 .resume ++ [.endScan, .resume]

theorem kill_seen_of_earlyKill :
    (StepRun.run State.step .init earlyKill).session = .endClose true ∧
      StepRun.Since State.step InterruptSeen Submits .init earlyKill := by
  have hpc : (StepRun.run State.step .init earlyKill).session = .endClose true := by decide
  refine ⟨hpc, (kill_seen_and_contained earlyKill).1 hpc ?_⟩
  refine ⟨List.replicate 3 .kill, .kill, _, rfl, ⟨rfl, by decide⟩, ?_⟩
  simp [KillReset, List.replicate]

end DuckdbEngine.Interrupt

import Kpmx.Lib.Runs
import Mathlib.Data.List.Infix
import Mathlib.Logic.Function.Basic

/-!
# Shutdown

What `main` does after `QApplication::exec` returns, interleaved with the threads it waits for. The
statements still to run are the rest of the list `shutdown`. The queues' contents play no part: a
consumer's drain always ends.

* `Inv.step` : while `wireplumber_metadata_update_thread` is not started, a consumer that main has
  woken for the last time sees the flag or ends;
* `shutdown_safe_iff` : no run hangs or destroys a joinable thread exactly when `wp_core_connect` fails.
-/

namespace Kpmx

open Runs

/-! ## Threads, flags and statements -/

inductive PipewireThread where
  | monitor
  | control
  | feedback
  deriving DecidableEq

/-- The threads that wait on a flag. -/
inductive ConsumerThread where
  | updatesToQt
  | updatesToQtNodesModel
  | wireplumberMetadataUpdate
  deriving DecidableEq

inductive ThreadId where
  | pipewire (t : PipewireThread)
  | objectManager
  | consumer (c : ConsumerThread)
  deriving DecidableEq

/-- The two `has_value` flags. -/
inductive WakeupFlag where
  | feedbackCtrl
  | objectManagerData
  deriving DecidableEq

def ConsumerThread.flag : ConsumerThread → WakeupFlag
  | .updatesToQt => .feedbackCtrl
  | .updatesToQtNodesModel => .objectManagerData
  | .wireplumberMetadataUpdate => .objectManagerData

/-- A statement of `main`. -/
inductive MainStatement where
  | exec
  | kill (t : ThreadId)
  | join (t : ThreadId)
  | storeRunning (c : ConsumerThread)
  | storeHasValue (f : WakeupFlag)
  | notifyAll (f : WakeupFlag)
  | ret
  deriving DecidableEq

/-- `main` from `QApplication::exec` on. -/
def shutdown : List MainStatement :=
  [.exec,
    .kill (.pipewire .monitor), .kill (.pipewire .control), .kill (.pipewire .feedback),
    .join (.pipewire .monitor), .join (.pipewire .feedback), .join (.pipewire .control),
    .storeRunning .updatesToQt, .storeHasValue .feedbackCtrl, .notifyAll .feedbackCtrl,
    .join (.consumer .updatesToQt),
    .kill .objectManager, .join .objectManager,
    .storeRunning .updatesToQtNodesModel, .storeHasValue .objectManagerData,
    .notifyAll .objectManagerData, .join (.consumer .updatesToQtNodesModel),
    .ret]

/-- Where a consumer stands: its thread not created, at the test of `running`, about to drain, about
to check the flag in `wait(false)`, blocked there, past it and about to store `false`, or ended. -/
inductive ThreadPc where
  | notStarted
  | top
  | drain
  | check
  | blocked
  | clear
  | exited
  deriving DecidableEq

/-- The consumer will look at the flag before it looks at `running`. -/
def ThreadPc.Awaits (pc : ThreadPc) : Prop := pc = .drain ∨ pc = .check ∨ pc = .blocked

/-- Where `wireplumber_object_manager_thread` stands: before `wp_core_connect`, in the main loop, or
ended. -/
inductive ObjectManagerPc where
  | connect
  | loop
  | exited
  deriving DecidableEq

/-- A thread is `signalled` once a SIGINT has been delivered to it and `joinable` while its
`std::thread` object exists and has not been joined; `terminated` says that such an object was
destroyed while joinable. -/
structure ShutdownState where
  main : List MainStatement
  pipewireExited : PipewireThread → Bool
  objectManager : ObjectManagerPc
  consumers : ConsumerThread → ThreadPc
  signalled : ThreadId → Bool
  running : ConsumerThread → Bool
  hasValue : WakeupFlag → Bool
  joinable : ThreadId → Bool
  terminated : Bool

namespace ShutdownState

/-- All of main's threads have been created and main is in `exec`. -/
def start : ShutdownState where
  main := shutdown
  pipewireExited := fun _ => false
  objectManager := .connect
  consumers := fun c => if c = .wireplumberMetadataUpdate then .notStarted else .top
  signalled := fun _ => false
  running := fun _ => true
  hasValue := fun _ => false
  joinable := fun t => decide (t ≠ .consumer .wireplumberMetadataUpdate)
  terminated := false

def exited (st : ShutdownState) : ThreadId → Bool
  | .pipewire t => st.pipewireExited t
  | .objectManager => decide (st.objectManager = .exited)
  | .consumer c => decide (st.consumers c = .exited)

/-- The threads whose `std::thread` objects are local to `main`. -/
def mainThreads : List ThreadId :=
  [.objectManager, .consumer .updatesToQtNodesModel, .pipewire .monitor, .pipewire .control,
    .pipewire .feedback, .consumer .updatesToQt]

/-- The threads that push and then raise a flag can still do so: the feedback streams, and the
WirePlumber callbacks or the user interface. -/
def producerAlive (st : ShutdownState) : WakeupFlag → Bool
  | .feedbackCtrl => !st.pipewireExited .feedback
  | .objectManagerData => decide (st.objectManager = .loop) || decide (.exec ∈ st.main)

/-- `notify_all`: the blocked consumers of a flag check it again. -/
def notified (st : ShutdownState) (f : WakeupFlag) : ConsumerThread → ThreadPc := fun c =>
  if c.flag = f ∧ st.consumers c = .blocked then .check else st.consumers c

inductive Action where
  | main
  | sigint (t : ThreadId)
  | pipewire (t : PipewireThread)
  | objectManager
  | consumer (c : ConsumerThread)
  | producerStore (f : WakeupFlag)
  | producerNotifyAll (f : WakeupFlag)

/-- The next statement of `main`, `rest` being what comes after it. -/
def mainStep (st : ShutdownState) (rest : List MainStatement) : MainStatement → Option ShutdownState
  | .exec => some { st with main := rest }
  | .kill t => some { st with main := rest, signalled := Function.update st.signalled t true }
  | .join t =>
    if st.exited t then some { st with main := rest, joinable := Function.update st.joinable t false }
    else none
  | .storeRunning c => some { st with main := rest, running := Function.update st.running c false }
  | .storeHasValue f => some { st with main := rest, hasValue := Function.update st.hasValue f true }
  | .notifyAll f => some { st with main := rest, consumers := st.notified f }
  | .ret => some { st with main := rest, terminated := mainThreads.any st.joinable }

/-- The next step of `wireplumber_object_manager_thread`: connect and create the metadata thread, or
return from the loop after SIGINT and leave the scope of that thread's object. -/
def objectManagerStep (connected : Bool) (st : ShutdownState) : Option ShutdownState :=
  match st.objectManager with
  | .connect =>
    if connected then some { st with
      objectManager := .loop
      consumers := Function.update st.consumers .wireplumberMetadataUpdate .top
      joinable := Function.update st.joinable (.consumer .wireplumberMetadataUpdate) true }
    else some { st with objectManager := .exited }
  | .loop =>
    if st.signalled .objectManager then some { st with
      objectManager := .exited
      terminated := st.joinable (.consumer .wireplumberMetadataUpdate) }
    else none
  | .exited => none

def goto (st : ShutdownState) (c : ConsumerThread) (pc : ThreadPc) : ShutdownState :=
  { st with consumers := Function.update st.consumers c pc }

/-- The next step of a consumer. -/
def consumerStep (st : ShutdownState) (c : ConsumerThread) : Option ShutdownState :=
  match st.consumers c with
  | .notStarted => none
  | .top => some (st.goto c (if st.running c then .drain else .exited))
  | .drain => some (st.goto c .check)
  | .check => some (st.goto c (if st.hasValue c.flag then .clear else .blocked))
  -- a blocked thread may look at the flag again without having been notified
  | .blocked => some (st.goto c (if st.hasValue c.flag then .clear else .blocked))
  | .clear => some { st.goto c .top with hasValue := Function.update st.hasValue c.flag false }
  | .exited => none

/-- `connected` is the answer of `wp_core_connect`. A terminated program makes no more steps. -/
def step (connected : Bool) (st : ShutdownState) (a : Action) : Option ShutdownState :=
  if st.terminated then none else
    match a with
    | .main =>
      match st.main with
      | [] => none
      | statement :: rest => st.mainStep rest statement
    | .sigint t => some { st with signalled := Function.update st.signalled t true }
    -- after SIGINT, or before when a stream cannot be created
    | .pipewire t => some { st with pipewireExited := Function.update st.pipewireExited t true }
    | .objectManager => st.objectManagerStep connected
    | .consumer c => st.consumerStep c
    | .producerStore f =>
      if st.producerAlive f then some { st with hasValue := Function.update st.hasValue f true }
      else none
    | .producerNotifyAll f => some { st with consumers := st.notified f }

/-- Main is blocked in the join of a thread that is blocked in `wait(false)` on a lowered flag, and
nothing that can still happen raises the flag. -/
def Hangs (connected : Bool) (st : ShutdownState) : Prop :=
  ∃ c, st.main.head? = some (.join (.consumer c)) ∧ st.consumers c = .blocked ∧
    ∀ st', Reachable (step connected) st st' → st'.hasValue c.flag = false

/-! ## While the metadata thread is not started -/

/-- Main has stored `false` in a consumer's `running` before it raises the flag for the last time. -/
theorem storeRunning_before_storeHasValue {rest : List MainStatement} (h : rest <:+ shutdown)
    {c : ConsumerThread} (hc : c ≠ .wireplumberMetadataUpdate)
    (hraised : .storeHasValue c.flag ∉ rest) : .storeRunning c ∉ rest := by
  have hall : ∀ rest ∈ shutdown.tails, ∀ c ∈ [ConsumerThread.updatesToQt, .updatesToQtNodesModel],
      .storeHasValue c.flag ∉ rest → .storeRunning c ∉ rest := by decide
  refine hall rest ((List.mem_tails _ _).mpr h) c ?_ hraised
  cases c <;> first | decide | exact absurd rfl hc

/-- Main has raised a consumer's flag for the last time before it joins the consumer. -/
theorem storeHasValue_before_join {rest : List MainStatement} {c : ConsumerThread}
    (h : .join (.consumer c) :: rest <:+ shutdown) :
    c ≠ .wireplumberMetadataUpdate ∧ .storeHasValue c.flag ∉ .join (.consumer c) :: rest := by
  have hall : ∀ rest ∈ shutdown.tails, ∀ c ∈ [ConsumerThread.updatesToQt, .updatesToQtNodesModel,
      .wireplumberMetadataUpdate], rest.head? = some (.join (.consumer c)) →
        c ≠ .wireplumberMetadataUpdate ∧ .storeHasValue c.flag ∉ rest := by decide
  refine hall _ ((List.mem_tails _ _).mpr h) c ?_ rfl
  cases c <;> decide

theorem join_before_ret {rest : List MainStatement} (h : .ret :: rest <:+ shutdown) {t : ThreadId}
    (ht : t ∈ mainThreads) : .join t ∉ .ret :: rest := by
  have hall : ∀ rest ∈ shutdown.tails, ∀ t ∈ mainThreads, rest.head? = some .ret →
      .join t ∉ rest := by decide
  exact hall _ ((List.mem_tails _ _).mpr h) t ht rfl

theorem flag_ne_flag {c d : ConsumerThread} (hc : c ≠ .wireplumberMetadataUpdate)
    (hd : d ≠ .wireplumberMetadataUpdate) (h : d ≠ c) : d.flag ≠ c.flag := by
  cases c <;> cases d <;> first | decide | exact absurd rfl h | exact absurd rfl hc | exact absurd rfl hd

/-- What holds in every state of a run in which the metadata thread is not started. -/
structure Inv (st : ShutdownState) : Prop where
  suffix : st.main <:+ shutdown
  stopped : ∀ c, c ≠ .wireplumberMetadataUpdate → .storeRunning c ∉ st.main → st.running c = false
  woken : ∀ c, c ≠ .wireplumberMetadataUpdate → .storeHasValue c.flag ∉ st.main →
    (st.consumers c).Awaits → st.hasValue c.flag = true
  joined : ∀ t, .join t ∉ st.main → st.joinable t = false
  notStarted : st.consumers .wireplumberMetadataUpdate = .notStarted
  notInLoop : st.objectManager ≠ .loop
  notTerminated : st.terminated = false

theorem inv_start : Inv start where
  suffix := List.suffix_refl _
  stopped := by
    intro c hc h
    cases c <;> first | exact absurd (by decide) h | exact absurd rfl hc
  woken := by
    intro c _ h
    cases c <;> exact absurd (by decide) h
  joined := by
    intro t h
    cases t with
    | pipewire t => cases t <;> exact absurd (by decide) h
    | objectManager => exact absurd (by decide) h
    | consumer c => cases c <;> first | rfl | exact absurd (by decide) h
  notStarted := rfl
  notInLoop := by decide
  notTerminated := rfl

theorem awaits_notified {st : ShutdownState} {f : WakeupFlag} {c : ConsumerThread}
    (h : (st.notified f c).Awaits) : (st.consumers c).Awaits := by
  unfold notified at h
  split at h
  · next hc => exact .inr (.inr hc.2)
  · exact h

theorem Inv.notified {st : ShutdownState} (h : Inv st) (f : WakeupFlag) :
    Inv { st with consumers := st.notified f } where
  suffix := h.suffix
  stopped := h.stopped
  woken c hc hraised hawaits := h.woken c hc hraised (awaits_notified hawaits)
  joined := h.joined
  notStarted := by simp [ShutdownState.notified, h.notStarted]
  notInLoop := h.notInLoop
  notTerminated := h.notTerminated

theorem Inv.raised {st : ShutdownState} (h : Inv st) (f : WakeupFlag) :
    Inv { st with hasValue := Function.update st.hasValue f true } where
  suffix := h.suffix
  stopped := h.stopped
  woken c hc hraised hawaits := by
    by_cases hf : c.flag = f
    · simp [hf]
    · simpa [hf] using h.woken c hc hraised hawaits
  joined := h.joined
  notStarted := h.notStarted
  notInLoop := h.notInLoop
  notTerminated := h.notTerminated

theorem Inv.advance {st : ShutdownState} {statement : MainStatement} {rest : List MainStatement}
    (h : Inv st) (hmain : st.main = statement :: rest)
    (hstop : ∀ c, statement = .storeRunning c → st.running c = false)
    (hraise : ∀ f, statement = .storeHasValue f → st.hasValue f = true)
    (hjoin : ∀ t, statement = .join t → st.joinable t = false) : Inv { st with main := rest } where
  suffix := (List.suffix_cons statement rest).trans (hmain ▸ h.suffix)
  stopped c hc hs := by
    by_cases he : statement = .storeRunning c
    · exact hstop c he
    · exact h.stopped c hc (by rw [hmain]; simp [hs, Ne.symm he])
  woken c hc hs hawaits := by
    by_cases he : statement = .storeHasValue c.flag
    · exact hraise _ he
    · exact h.woken c hc (by rw [hmain]; simp [hs, Ne.symm he]) hawaits
  joined t ht := by
    by_cases he : statement = .join t
    · exact hjoin t he
    · exact h.joined t (by rw [hmain]; simp [ht, Ne.symm he])
  notStarted := h.notStarted
  notInLoop := h.notInLoop
  notTerminated := h.notTerminated

theorem Inv.mainStep {st st' : ShutdownState} {statement : MainStatement} {rest : List MainStatement}
    (h : Inv st) (hmain : st.main = statement :: rest) (hst : st.mainStep rest statement = some st') :
    Inv st' := by
  cases statement with
  | exec =>
    cases hst
    exact h.advance hmain (by simp) (by simp) (by simp)
  | kill t =>
    cases hst
    have hkilled : Inv { st with signalled := Function.update st.signalled t true } := { h with }
    exact hkilled.advance hmain (by simp) (by simp) (by simp)
  | join t =>
    simp only [ShutdownState.mainStep, Option.ite_none_right_eq_some, Option.some.injEq] at hst
    obtain ⟨-, rfl⟩ := hst
    have hall : ∀ u, .join u ∉ st.main → Function.update st.joinable t false u = false := by
      intro u hu
      by_cases hut : u = t
      · simp [hut]
      · simpa [hut] using h.joined u hu
    have hjoined : Inv { st with joinable := Function.update st.joinable t false } :=
      { h with joined := hall }
    exact hjoined.advance hmain (by simp) (by simp) (by simp)
  | storeRunning d =>
    cases hst
    have hall : ∀ c, c ≠ .wireplumberMetadataUpdate → .storeRunning c ∉ st.main →
        Function.update st.running d false c = false := by
      intro c hc hs
      by_cases hcd : c = d
      · simp [hcd]
      · simpa [hcd] using h.stopped c hc hs
    have hstopped : Inv { st with running := Function.update st.running d false } :=
      { h with stopped := hall }
    exact hstopped.advance hmain (by simp) (by simp) (by simp)
  | storeHasValue f =>
    cases hst
    exact (h.raised f).advance hmain (by simp) (by simp) (by simp)
  | notifyAll f =>
    cases hst
    exact (h.notified f).advance hmain (by simp) (by simp) (by simp)
  | ret =>
    cases hst
    have hjoined : mainThreads.any st.joinable = false := by
      rw [List.any_eq_false]
      intro t ht
      rw [h.joined t (hmain ▸ join_before_ret (hmain ▸ h.suffix) ht)]
      decide
    rw [hjoined]
    have hret : Inv { st with terminated := false } := { h with notTerminated := rfl }
    exact hret.advance hmain (by simp) (by simp) (by simp)

theorem Inv.objectManagerStep {st st' : ShutdownState} (h : Inv st)
    (hst : st.objectManagerStep false = some st') : Inv st' := by
  simp only [ShutdownState.objectManagerStep] at hst
  split at hst
  · cases hst
    exact { h with notInLoop := by simp }
  · next hloop => exact absurd hloop h.notInLoop
  · cases hst

/-- A consumer at another place, when being there does not make it await a lowered flag. -/
theorem Inv.goto {st : ShutdownState} (h : Inv st) {c : ConsumerThread} {pc : ThreadPc}
    (hc : c ≠ .wireplumberMetadataUpdate)
    (hpc : .storeHasValue c.flag ∉ st.main → pc.Awaits → st.hasValue c.flag = true) :
    Inv (st.goto c pc) where
  suffix := h.suffix
  stopped := h.stopped
  woken d hd hraised hawaits := by
    by_cases hdc : d = c
    · subst hdc
      exact hpc hraised (by simpa [ShutdownState.goto] using hawaits)
    · exact h.woken d hd hraised (by simpa [ShutdownState.goto, hdc] using hawaits)
  joined := h.joined
  notStarted := by simpa [ShutdownState.goto, Ne.symm hc] using h.notStarted
  notInLoop := h.notInLoop
  notTerminated := h.notTerminated

theorem Inv.consumerStep {st st' : ShutdownState} {c : ConsumerThread} (h : Inv st)
    (hst : st.consumerStep c = some st') : Inv st' := by
  have hc : c ≠ .wireplumberMetadataUpdate := by
    rintro rfl
    simp [ShutdownState.consumerStep, h.notStarted] at hst
  have hwoken := h.woken c hc
  simp only [ShutdownState.consumerStep] at hst
  split at hst
  · cases hst
  · -- at the test of `running`: after main's last store it reads false
    cases hst
    refine h.goto hc fun hraised hawaits => ?_
    rw [h.stopped c hc (storeRunning_before_storeHasValue h.suffix hc hraised)] at hawaits
    simp [ThreadPc.Awaits] at hawaits
  · next hpc =>
    cases hst
    exact h.goto hc fun hraised _ => hwoken hraised (.inl hpc)
  · next hpc =>
    cases hst
    exact h.goto hc fun hraised _ => hwoken hraised (.inr (.inl hpc))
  · next hpc =>
    cases hst
    exact h.goto hc fun hraised _ => hwoken hraised (.inr (.inr hpc))
  · cases hst
    have htop : Inv (st.goto c .top) := h.goto hc fun _ hawaits => by simp [ThreadPc.Awaits] at hawaits
    -- it lowers its own flag and is back at the test of `running`
    have hall : ∀ d, d ≠ .wireplumberMetadataUpdate → .storeHasValue d.flag ∉ st.main →
        ((st.goto c .top).consumers d).Awaits →
        Function.update st.hasValue c.flag false d.flag = true := by
      intro d hd hraised hawaits
      by_cases hdc : d = c
      · subst hdc
        simp [ShutdownState.goto, ThreadPc.Awaits] at hawaits
      · have hf := flag_ne_flag hc hd hdc
        simpa [ShutdownState.goto, hf] using htop.woken d hd hraised hawaits
    exact { htop with woken := hall }
  · cases hst

theorem Inv.step {st st' : ShutdownState} {a : Action} (h : Inv st)
    (hst : step false st a = some st') : Inv st' := by
  unfold ShutdownState.step at hst
  rw [if_neg (by simp [h.notTerminated])] at hst
  cases a with
  | main =>
    simp only at hst
    split at hst
    · cases hst
    · next statement rest hmain => exact h.mainStep hmain hst
  | sigint t => cases hst; exact { h with }
  | pipewire t => cases hst; exact { h with }
  | objectManager => exact h.objectManagerStep hst
  | consumer c => exact h.consumerStep hst
  | producerStore f =>
    simp only [Option.ite_none_right_eq_some, Option.some.injEq] at hst
    obtain ⟨-, rfl⟩ := hst
    exact h.raised f
  | producerNotifyAll f => cases hst; exact h.notified f

/-- A thread that main is waiting for, blocked, still sees its flag raised. -/
theorem Inv.not_hangs {st : ShutdownState} (h : Inv st) : ¬ st.Hangs false := by
  rintro ⟨c, hhead, hblocked, hlow⟩
  obtain ⟨rest, hmain⟩ := List.head?_eq_some_iff.mp hhead
  obtain ⟨hc, hraised⟩ := storeHasValue_before_join (hmain ▸ h.suffix)
  have hflag := h.woken c hc (hmain ▸ hraised) (.inr (.inr hblocked))
  exact absurd (hflag.symm.trans (hlow st (.refl st))) (by decide)

/-! ## When the metadata thread is started -/

/-- The application is closed and the WirePlumber loop returns. -/
def closingRun : List Action :=
  [.objectManager, .main, .main, .main, .main, .pipewire .monitor, .pipewire .feedback,
    .pipewire .control, .main, .main, .main, .main, .main, .main,
    .consumer .updatesToQt, .main, .main, .objectManager]

theorem closingRun_terminates :
    (run (step true) start closingRun).map terminated = some true := by decide

/-- **Shutdown is safe** in every run, without a hang and without a joinable thread destroyed, exactly
when `wp_core_connect` fails: the metadata thread is then never created. -/
theorem shutdown_safe_iff (connected : Bool) :
    (∀ ls st, run (step connected) start ls = some st →
      ¬ st.Hangs connected ∧ st.terminated = false) ↔ connected = false := by
  constructor
  · intro h
    cases connected with
    | false => rfl
    | true =>
      obtain ⟨st, hrun, hterminated⟩ := Option.map_eq_some_iff.mp closingRun_terminates
      exact absurd ((h _ st hrun).2.symm.trans hterminated) (by decide)
  · rintro rfl ls st hrun
    have hinv : Inv st := run_invariant (fun _ _ _ ha hl => ha.step hl) hrun inv_start
    exact ⟨hinv.not_hangs, hinv.notTerminated⟩

/-- With WirePlumber connected, closing the application destroys the joinable metadata thread. -/
theorem closing_destroys_joinable : ¬ ∀ connected ls st, run (step connected) start ls = some st →
    ¬ st.Hangs connected ∧ st.terminated = false := by
  intro h
  obtain ⟨st, hrun, hterminated⟩ := Option.map_eq_some_iff.mp closingRun_terminates
  exact absurd ((h true _ st hrun).2.symm.trans hterminated) (by decide)

end ShutdownState

end Kpmx

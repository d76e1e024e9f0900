import Mathlib.Data.List.Basic
import Mathlib.Tactic

/-!
# Trigger children

Model of `trigger.c`: the table of trigger children, `SIGCHLD` and
`child_handler`, as a system of three parties.

* The daemon forks triggers (`run_trigger`) from the callbacks of its event
  loop, and runs `child_handler` only inside `ppoll`; `SIGCHLD` is blocked
  everywhere else (`event_signal`, eventloop.c:100-113).
* A trigger child runs and exits at any time, also while the handler runs.
* The kernel keeps exited children as zombies until they are waited for, and
  keeps at most one `SIGCHLD` pending, with the `si_pid` of the exit that made
  it pending. Later exits merge into it.

`child_handler` is split at its system calls: between any two of them other
children may exit. The messages that `finish_child` prints about the exit
status are left out.
-/

namespace Mcelog.Trigger

/-- Where `child_handler` (trigger.c:121-136) stands. -/
inductive Handler
  /-- not running -/
  | idle
  /-- before `waitpid(si->si_pid, &status, WNOHANG)` -/
  | waitSi (siPid : ℕ)
  /-- before `finish_child(si->si_pid, status)` -/
  | finishSi (siPid : ℕ)
  /-- before `waitpid(-1, &status, WNOHANG)` -/
  | sweep
  /-- before `finish_child(pid, status)` in the loop -/
  | finishSweep (pid : ℕ)
  deriving DecidableEq, Repr

/-- The daemon, its children and the pending signal. -/
structure State where
  /-- `childlist`, the pids in list order -/
  childlist : List ℕ
  /-- `num_children` -/
  numChildren : ℤ
  /-- children that still run -/
  running : List ℕ
  /-- children that exited and were not waited for -/
  zombies : List ℕ
  /-- the pending `SIGCHLD` with its `si_pid` -/
  pending : Option ℕ
  handler : Handler
  /-- `finish_child` called `abort()` -/
  aborted : Bool
  deriving DecidableEq, Repr

/-- The state at startup. -/
def State.init : State :=
  { childlist := [], numChildren := 0, running := [], zombies := [], pending := none,
    handler := .idle, aborted := false }

/-- `mcelog_fork` (trigger.c:46-61) after `fork()` returned `pid` in the daemon:
    `num_children++` and `list_add_tail(&c->nd, &childlist)`. -/
def mcelogFork (s : State) (pid : ℕ) : State :=
  { s with
    numChildren := s.numChildren + 1
    childlist := s.childlist ++ [pid]
    running := pid :: s.running }

/-- `children_max > 0 && num_children >= children_max` (trigger.c:77). -/
def tooManyChildren (childrenMax : ℤ) (s : State) : Prop :=
  childrenMax > 0 ∧ s.numChildren ≥ childrenMax

instance (childrenMax : ℤ) (s : State) : Decidable (tooManyChildren childrenMax s) :=
  inferInstanceAs (Decidable (childrenMax > 0 ∧ s.numChildren ≥ childrenMax))

/-- A child exits: it becomes a zombie and raises `SIGCHLD`, which merges into
    a pending one. -/
def childExit (s : State) (pid : ℕ) : State :=
  { s with
    running := s.running.erase pid
    zombies := pid :: s.zombies
    pending := some (s.pending.getD pid) }

/-- `finish_child` (trigger.c:97-118), continuing with `next`: the entry is
    removed from `childlist`, or the daemon aborts if there is none. -/
def finishChild (s : State) (pid : ℕ) (next : Handler) : State :=
  if pid ∈ s.childlist then
    { s with childlist := s.childlist.erase pid, numChildren := s.numChildren - 1, handler := next }
  else { s with aborted := true, handler := .idle }

/-- The steps of the system. -/
inductive Event
  /-- `run_trigger` forks a child with this pid -/
  | fork (pid : ℕ)
  /-- `run_trigger` starts no child: there are too many, or `fork()` fails -/
  | refuse
  /-- a child exits -/
  | exit (pid : ℕ)
  /-- `ppoll` returns ready descriptors without delivering the signal -/
  | ready
  /-- `ppoll` delivers the pending `SIGCHLD` -/
  | deliver
  /-- `child_handler` executes up to its next system call; `pid` is the child
      that `waitpid(-1)` picks -/
  | handle (pid : ℕ)
  deriving DecidableEq, Repr

/-- The step relation. A pid that `fork()` returns belongs to no running child
    and to no zombie; it may have belonged to a child that was reaped. -/
inductive Step (childrenMax : ℤ) : State → Event → State → Prop
  | fork {s : State} {pid : ℕ} : s.aborted = false → s.handler = .idle →
      ¬ tooManyChildren childrenMax s → pid ∉ s.running → pid ∉ s.zombies →
      Step childrenMax s (.fork pid) (mcelogFork s pid)
  | refuse {s : State} : s.aborted = false → s.handler = .idle → Step childrenMax s .refuse s
  | exit {s : State} {pid : ℕ} : pid ∈ s.running → Step childrenMax s (.exit pid) (childExit s pid)
  | ready {s : State} : s.aborted = false → s.handler = .idle → Step childrenMax s .ready s
  | deliver {s : State} {siPid : ℕ} : s.aborted = false → s.handler = .idle →
      s.pending = some siPid →
      Step childrenMax s .deliver { s with pending := none, handler := .waitSi siPid }
  /-- `waitpid(si->si_pid, ..)` reaps the zombie -/
  | waitSiZombie {s : State} {siPid pid : ℕ} : s.handler = .waitSi siPid → siPid ∈ s.zombies →
      Step childrenMax s (.handle pid)
        { s with zombies := s.zombies.erase siPid, handler := .finishSi siPid }
  /-- `waitpid(si->si_pid, .., WNOHANG)` returns 0: a child with this pid runs -/
  | waitSiRunning {s : State} {siPid pid : ℕ} : s.handler = .waitSi siPid → siPid ∉ s.zombies →
      siPid ∈ s.running → Step childrenMax s (.handle pid) { s with handler := .finishSi siPid }
  /-- `waitpid(si->si_pid, ..)` fails and the handler returns -/
  | waitSiFail {s : State} {siPid pid : ℕ} : s.handler = .waitSi siPid → siPid ∉ s.zombies →
      siPid ∉ s.running → Step childrenMax s (.handle pid) { s with handler := .idle }
  | finishSi {s : State} {siPid pid : ℕ} : s.handler = .finishSi siPid →
      Step childrenMax s (.handle pid) (finishChild s siPid .sweep)
  /-- `waitpid(-1, ..)` reaps some zombie -/
  | sweep {s : State} {pid : ℕ} : s.handler = .sweep → pid ∈ s.zombies →
      Step childrenMax s (.handle pid)
        { s with zombies := s.zombies.erase pid, handler := .finishSweep pid }
  /-- `waitpid(-1, ..)` finds no zombie and the handler returns -/
  | sweepDone {s : State} {pid : ℕ} : s.handler = .sweep → s.zombies = [] →
      Step childrenMax s (.handle pid) { s with handler := .idle }
  | finishSweep {s : State} {swept pid : ℕ} : s.handler = .finishSweep swept →
      Step childrenMax s (.handle pid) (finishChild s swept .sweep)

end Mcelog.Trigger

import TieredStore.Store.Table

/-!
# The database tier

A table that is worked on by jobs.  Jobs wait in a queue and are applied one by one, the oldest
first, at any time; who needs the answer of a job waits until it is applied.  A look-up is a job
like the others, so it sees every write that was queued before it.

What matters of a database is its table once all jobs are done (`Database.settled`): work leaves it
as it is (`settled_work`), and every answer is taken from it (`perform_eq`).
-/

namespace TieredStore

inductive Job where
  | put (key value : Bytes)
  | erase (key : Bytes)
  | find (key : Bytes)
  /-- Nothing, but in its turn. -/
  | barrier
  deriving DecidableEq, Repr

namespace Job

def apply (table : Table) : Job → Table
  | .put key value => table.insert key value
  | .erase key => table.erase key
  | .find _ | .barrier => table

/-- What a job reports: the value that a look-up finds. -/
def answer (table : Table) : Job → Option Bytes
  | .find key => table.get? key
  | _ => none

end Job

/-- A table with the jobs that are yet to be applied to it, the oldest first. -/
structure Database where
  table : Table
  queue : List Job
  deriving DecidableEq

namespace Database

def empty : Database :=
  ⟨.empty, []⟩

def submit (database : Database) (job : Job) : Database :=
  ⟨database.table, database.queue ++ [job]⟩

/-- Applies the oldest job, if there is one. -/
def step (database : Database) : Database :=
  match database.queue with
  | [] => database
  | job :: queue => ⟨job.apply database.table, queue⟩

def work : Nat → Database → Database
  | 0, database => database
  | n + 1, database => work n database.step

/-- Applies jobs until the one with `n` others before it is applied, and tells what that one
reports.  There is no report of a job that is not queued. -/
def runJobs : (n : Nat) → (queue : List Job) → Table → Option (Option Bytes) × Database
  | _, [], table => (none, ⟨table, []⟩)
  | 0, job :: queue, table => (some (job.answer table), ⟨job.apply table, queue⟩)
  | n + 1, job :: queue, table => runJobs n queue (job.apply table)

/-- Queues a job and waits until it is applied. -/
def perform (database : Database) (job : Job) : Option (Option Bytes) × Database :=
  runJobs database.queue.length (database.queue ++ [job]) database.table

/-- The database once every queued job is applied. -/
def flush (database : Database) : Database :=
  (database.perform .barrier).2

/-! ## The settled table -/

/-- The table that the jobs will have made of this one when they are done. -/
def settled (database : Database) : Table :=
  database.queue.foldl Job.apply database.table

@[simp] theorem settled_submit (database : Database) (job : Job) :
    (database.submit job).settled = job.apply database.settled := by
  simp [settled, submit]

@[simp] theorem settled_step (database : Database) : database.step.settled = database.settled := by
  obtain ⟨table, queue⟩ := database
  cases queue <;> rfl

@[simp] theorem settled_work (n : Nat) (database : Database) :
    (database.work n).settled = database.settled := by
  induction n generalizing database with
  | zero => rfl
  | succ n ih => rw [work, ih, settled_step]

theorem runJobs_append (queue : List Job) (job : Job) (table : Table) :
    runJobs queue.length (queue ++ [job]) table
      = (some (job.answer (queue.foldl Job.apply table)),
          ⟨job.apply (queue.foldl Job.apply table), []⟩) := by
  induction queue generalizing table with
  | nil => rfl
  | cons first queue ih => exact ih (first.apply table)

/-- Who waits for a job is answered from the settled table, and leaves no job behind. -/
theorem perform_eq (database : Database) (job : Job) :
    database.perform job = (some (job.answer database.settled), ⟨job.apply database.settled, []⟩) :=
  runJobs_append database.queue job database.table

theorem flush_eq (database : Database) : database.flush = ⟨database.settled, []⟩ := by
  rw [flush, perform_eq]
  rfl

end Database

end TieredStore

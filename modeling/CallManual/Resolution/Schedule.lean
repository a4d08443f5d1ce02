import CallManual.Resolution.Report

/-!
# Schedules of a batch

Every lookup of a batch is a task of its own. A task waits until it takes one of the permits, gives
it back when its lookup ends, and keeps the answer. Any task that can go on may be the next to do
so; the report is made when all of them are done.
-/
namespace CallManual

abbrev Answer := Except Ambiguity Resolution

inductive TaskStatus
  | waiting
  | holding
  | done (answer : Answer)

structure LookupTask where
  callName : Text
  status : TaskStatus

namespace LookupTask

def isHolding (t : LookupTask) : Bool :=
  match t.status with
  | .holding => true
  | _ => false

def answer? (t : LookupTask) : Option Answer :=
  match t.status with
  | .done a => some a
  | _ => none

end LookupTask

/-- The tasks of a batch in the order of their names, and the permits that are free. -/
structure Schedule where
  tasks : List LookupTask
  permits : Nat

namespace Schedule

def start (permits : Nat) (callNames : List Text) : Schedule :=
  ⟨callNames.map fun n => ⟨n, .waiting⟩, permits⟩

/-- How many lookups are going on. -/
def inFlight (s : Schedule) : Nat := s.tasks.countP LookupTask.isHolding

def isDone (s : Schedule) : Bool := s.tasks.all fun t => t.answer?.isSome

/-- What a task may do next, when `lookup` says how the lookup of each name ends. -/
inductive Step (lookup : Text → Answer) : Schedule → Schedule → Prop
  | acquire (front back : List LookupTask) (callName : Text) (permits : Nat) :
    Step lookup ⟨front ++ ⟨callName, .waiting⟩ :: back, permits + 1⟩
      ⟨front ++ ⟨callName, .holding⟩ :: back, permits⟩
  | finish (front back : List LookupTask) (callName : Text) (permits : Nat) :
    Step lookup ⟨front ++ ⟨callName, .holding⟩ :: back, permits⟩
      ⟨front ++ ⟨callName, .done (lookup callName)⟩ :: back, permits + 1⟩

/-- The report on the call names, once all answers are there. -/
def report? (callNames : List Text) (s : Schedule) : Option Report :=
  (s.tasks.mapM LookupTask.answer?).map fun answers => Report.ofLookups (callNames.zip answers)

end Schedule

end CallManual

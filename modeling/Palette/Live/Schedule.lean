import Palette.Collections.Queue

/-!
# Schedules

Jobs take turns. Those that can go on are run in the order in which they became ready. A job that
yields stands aside until nobody else is ready, or until a round of `roundLength` turns is over;
then those who stand aside are recalled, the last to yield first. Others sleep until their time
has come; time passes only when nobody is ready or stands aside, and then just as far as the next
one who wakes up.
-/

namespace Palette

/-- Jobs that are ready, that stand aside and that sleep. -/
structure Schedule (J : Type _) where
  now : Nat
  ready : Queue J
  /-- Jobs that yielded, the latest first. -/
  aside : List J
  /-- Jobs with the times to wake them, in the order in which they fell asleep. -/
  sleeping : List (Nat × J)
  /-- The turns taken since jobs were recalled or woken. -/
  taken : Nat

namespace Schedule

variable {J : Type _}

/-- The greatest number of turns before those who stand aside are recalled. -/
def roundLength : Nat := 61

/-- Nothing to do. -/
def empty : Schedule J :=
  { now := 0, ready := .empty, aside := [], sleeping := [], taken := 0 }

/-- Puts a job behind those that are ready. -/
def add (s : Schedule J) (job : J) : Schedule J := { s with ready := s.ready.push job }

/-- Lets a job stand aside. -/
def yield (s : Schedule J) (job : J) : Schedule J := { s with aside := job :: s.aside }

/-- Lets a job sleep for a while. -/
def sleep (s : Schedule J) (duration : Nat) (job : J) : Schedule J :=
  { s with sleeping := s.sleeping ++ [(s.now + duration, job)] }

/-- Begins a round: those who stand aside are ready again, behind the others. -/
def newRound (s : Schedule J) : Schedule J :=
  { s with ready := s.aside.foldl .push s.ready, aside := [], taken := 0 }

/-- The next job to take its turn, unless all sleep. -/
def next? (s : Schedule J) : Option (J × Schedule J) :=
  let s := if s.ready.isEmpty || s.taken == roundLength then s.newRound else s
  s.ready.pop?.map fun (job, ready) => (job, { s with ready, taken := s.taken + 1 })

/-- Lets time pass to the next time at which someone wakes up, unless that is after `limit`. -/
def wake? (s : Schedule J) (limit : Nat) : Option (Schedule J) :=
  match (s.sleeping.map (·.1)).min? with
  | none => none
  | some time =>
    if limit < time then none
    else
      let (due, later) := s.sleeping.partition (·.1 ≤ time)
      some
        { s with
          now := max s.now time, ready := due.foldl (fun ready entry => ready.push entry.2) s.ready,
          sleeping := later, taken := 0 }

/-- Lets time pass up to `time`. -/
def passTo (s : Schedule J) (time : Nat) : Schedule J := { s with now := max s.now time }

/-- All jobs. -/
def jobs (s : Schedule J) : List J := s.ready.toList ++ s.aside ++ s.sleeping.map (·.2)

end Schedule

end Palette

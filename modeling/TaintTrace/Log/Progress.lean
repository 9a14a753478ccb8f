import TaintTrace.Log.Basic

/-!
# Progress

A long pass counts the things it has processed and reports the count from time to
time.
-/

namespace TaintTrace

/-- A count of the things processed by a pass. -/
structure Progress where
  what : Text
  total : Int
  interval : Nat
  done : Nat := 0

namespace Progress

/-- The interval between reports, unless a positive one is given. -/
def defaultInterval : Nat := 1000000

def start (what : Text) (total interval : Int) : Progress :=
  ⟨what, total, if interval ≤ 0 then defaultInterval else interval.toNat, 0⟩

/-- The report of a count, due when it is a multiple of the interval. -/
def report? (p : Progress) (done : Nat) : Option Message :=
  if done % p.interval = 0 then
    some ⟨.debug, p.what ++ ": " ++ Text.ofNat done ++ "/" ++ Text.ofInt p.total ++ " processed"⟩
  else none

def tick (p : Progress) : Log × Progress :=
  ((p.report? (p.done + 1)).toList, { p with done := p.done + 1 })

/-- The reports of the counts from one more than `done` to `done + n`. -/
def reports (p : Progress) (n : Nat) : Log :=
  (List.range' (p.done + 1) n).filterMap p.report?

/-- Count `n` more, one after another. -/
def ticks (p : Progress) : (n : Nat) -> Log × Progress
  | 0 => ([], p)
  | n + 1 =>
      let first := p.tick
      let rest := first.2.ticks n
      (first.1 ++ rest.1, rest.2)

theorem ticks_eq_reports (p : Progress) (n : Nat) :
    p.ticks n = (p.reports n, { p with done := p.done + n }) := by
  induction n generalizing p with
  | zero => rfl
  | succ n ih =>
      have hreports : p.reports (n + 1) = p.tick.1 ++ p.tick.2.reports n := by
        rw [reports, List.range'_succ, List.filterMap_cons, tick]
        cases p.report? (p.done + 1) with
        | none => rfl
        | some m => rfl
      rw [ticks, ih, hreports]
      simp only [tick, Nat.add_assoc, Nat.add_comm 1 n]

end Progress
end TaintTrace

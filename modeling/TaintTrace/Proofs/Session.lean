import Mathlib
import TaintTrace.Command.Session
import TaintTrace.Proofs.Cache

/-!
# What a session keeps

A command can look at the trace, and it can have the cavities or the map of bytes
computed.  Whatever commands are given, the map of a session is that of its trace, and
once it has been asked for it is answered without looking at the trace.
-/

namespace TaintTrace
namespace Session

variable {s s' : Session} {found : Except Fault ByteMap} {t : Trace} {interval : Int}

/-!
## Commands
-/

inductive Step (s : Session) : Session -> Prop where
  | same : Step s s
  | looked {α : Type} (p : Lookup α) : Step s { s with reader := (s.reader.run p).2 }
  | cavities : Step s s.withCavities.2.2
  | byteMap : Step s s.withByteMap.2.2

theorem step_look {α : Type} (s : Session) (p : Lookup α) (output : α -> Text) :
    s.Step (s.look p output).session :=
  .looked p

theorem step_perform (s : Session) (name : CommandName) (c : Command) :
    s.Step (s.perform name c).session := by
  cases name with
  | cavities =>
      change s.Step (s.listCavities c).session
      unfold listCavities
      dsimp only
      split
      · exact .same
      · exact .cavities
  | exit => exact .same
  | files => exact .same
  | help => exact .same
  | info =>
      change s.Step s.info.session
      unfold info
      exact step_look s _ _
  | mapping =>
      change s.Step (s.showMapping c).session
      unfold showMapping
      split
      · split
        · exact .same
        · split
          · exact .same
          · split
            · exact .same
            · exact .byteMap
      · exact .same
  | node =>
      change s.Step (s.node c).session
      unfold node
      split
      · exact .same
      · exact step_look s _ _
  | sinks =>
      change s.Step (s.sinks c).session
      unfold sinks
      split
      · exact .same
      · exact .same
  | sources =>
      change s.Step (s.sources c).session
      unfold sources
      split
      · exact .same
      · exact step_look s _ _
  | state => exact .same
  | tree =>
      change s.Step (s.tree c).session
      unfold tree
      split
      · exact .same
      · exact .same
      · exact step_look s _ _

theorem step_interpret (s : Session) (line : Text) : s.Step (s.interpret line).session := by
  unfold interpret
  dsimp only
  split
  · exact .same
  · split
    · exact step_perform s _ _
    · exact .same

def after (s : Session) (lines : List Text) : Session :=
  lines.foldl (fun s line => (s.interpret line).session) s

theorem after_induction {P : Session -> Prop} (hstep : forall s s', Step s s' -> P s -> P s')
    (h : P s) (lines : List Text) : P (s.after lines) := by
  induction lines generalizing s with
  | nil => exact h
  | cons line lines ih => exact ih (hstep s _ (step_interpret s line) h)

/-!
## The map of bytes
-/

def reading (s : Session) (reader : TraceReader) : Session :=
  { s with reader := reader }

theorem withByteMap_of_some (h : s.byteMap = some found) : s.withByteMap = (found, [], s) := by
  unfold withByteMap
  rw [h]

theorem byteMap_withByteMap (s : Session) :
    s.withByteMap.2.2.byteMap = some s.withByteMap.1 := by
  unfold withByteMap
  split
  · rename_i hfound
    exact hfound
  · rfl

theorem byteMap_withCavities (s : Session) : s.withCavities.2.2.byteMap = s.byteMap := by
  unfold withCavities
  split
  · rfl
  · rfl

theorem Step.byteMap_eq_some (step : Step s s') (h : s.byteMap = some found) :
    s'.byteMap = some found := by
  cases step with
  | same => exact h
  | looked p => exact h
  | cavities => exact (byteMap_withCavities s).trans h
  | byteMap =>
      rw [withByteMap_of_some h]
      exact h

/-- A session that looks at a trace in which it has computed nothing yet. -/
structure Opens (s : Session) (t : Trace) (interval : Int) : Prop where
  trace : s.trace = t
  progress : s.settings.options.progressInterval = interval
  cache : forall c, s.reader.cache = some c -> c.entries = []
  byteMap : s.byteMap = none

/-- A session whose cache and whose map are those of a trace. -/
structure Honest (t : Trace) (interval : Int) (s : Session) : Prop where
  trace : s.trace = t
  progress : s.settings.options.progressInterval = interval
  reader : s.reader.Sound
  byteMap : forall found, s.byteMap = some found -> ((t.byteMap interval).run t).2 = found

theorem Opens.honest (h : s.Opens t interval) : Honest t interval s := by
  refine ⟨h.trace, h.progress, ?_, ?_⟩
  · intro c hc l n hmem
    rw [h.cache c hc] at hmem
    cases hmem
  · intro found hfound
    rw [h.byteMap] at hfound
    cases hfound

theorem Honest.run {α : Type} (h : Honest t interval s) (p : Lookup α) :
    Honest t interval (s.reading (s.reader.run p).2) := by
  rcases h.reader.run p with ⟨_, hsound, htrace⟩
  exact ⟨htrace.trans h.trace, h.progress, hsound, h.byteMap⟩

theorem Honest.withByteMap (h : Honest t interval s) :
    s.withByteMap.1 = ((t.byteMap interval).run t).2 ∧ Honest t interval s.withByteMap.2.2 := by
  cases hmap : s.byteMap with
  | some found =>
      rw [withByteMap_of_some hmap]
      exact ⟨(h.byteMap found hmap).symm, h⟩
  | none =>
      have hanswer := congrArg Prod.snd (h.reader.run (s.trace.byteMap
        s.settings.options.progressInterval)).1
      have hrun := h.run (s.trace.byteMap s.settings.options.progressInterval)
      have hfound : s.withByteMap.1 = ((t.byteMap interval).run t).2 := by
        unfold Session.withByteMap
        rw [hmap, ← h.trace, ← h.progress]
        exact hanswer
      refine ⟨hfound, ?_⟩
      have hsame : s.withByteMap.2.2 = { s.reading (s.reader.run (s.trace.byteMap
          s.settings.options.progressInterval)).2 with byteMap := some s.withByteMap.1 } := by
        unfold Session.withByteMap
        rw [hmap]
        rfl
      rw [hsame, hfound]
      refine ⟨hrun.trace, hrun.progress, hrun.reader, ?_⟩
      intro found heq
      exact Option.some.inj heq

theorem Honest.withCavities (h : Honest t interval s) :
    Honest t interval s.withCavities.2.2 := by
  unfold Session.withCavities
  split
  · exact h
  · have hrun := h.run (s.trace.cavities s.settings.cavityOptions)
    exact ⟨hrun.trace, hrun.progress, hrun.reader, hrun.byteMap⟩

theorem Step.honest (step : Step s s') (h : Honest t interval s) : Honest t interval s' := by
  cases step with
  | same => exact h
  | looked p => exact h.run p
  | cavities => exact h.withCavities
  | byteMap => exact h.withByteMap.2

theorem Opens.withByteMap_after (h : s.Opens t interval) (lines : List Text) :
    (s.after lines).withByteMap.1 = ((t.byteMap interval).run t).2 := by
  have hhonest : Honest t interval (s.after lines) :=
    after_induction (fun _ _ step => step.honest) h.honest lines
  exact hhonest.withByteMap.1

theorem withByteMap_again (s : Session) (lines : List Text) (reader : TraceReader) :
    ((s.withByteMap.2.2.after lines).reading reader).withByteMap =
      (s.withByteMap.1, [], (s.withByteMap.2.2.after lines).reading reader) := by
  have hkept : (s.withByteMap.2.2.after lines).byteMap = some s.withByteMap.1 :=
    after_induction (fun _ _ step h => step.byteMap_eq_some h) (byteMap_withByteMap s) lines
  exact withByteMap_of_some hkept

end Session
end TaintTrace

import Mathlib
import TaintTrace.Proofs.Session

/-!
# Answers without history

A session remembers recent nodes, the cavities and the map of bytes.  All of this is what
it would find again, so two sessions on one trace give the same answers, whatever they
were asked before.  Only the command for the state of a session shows what it remembers.
-/

namespace TaintTrace
namespace Session

variable {s s' : Session}

/-!
## What a session remembers
-/

/-- A session whose cache, cavities and map of bytes are those of its trace. -/
structure Faithful (s : Session) : Prop where
  honest : Honest s.trace s.settings.options.progressInterval s
  cavities : forall found, s.cavities = some found ->
    ((s.trace.cavities s.settings.cavityOptions).run s.trace).2 = found

/-- A session that has computed nothing, on a trace that may have been read before. -/
structure Fresh (s : Session) : Prop where
  reader : s.reader.Sound
  cavities : s.cavities = none
  byteMap : s.byteMap = none

theorem fresh_of_empty (hcache : forall c, s.reader.cache = some c -> c.entries = [])
    (hcavities : s.cavities = none) (hmap : s.byteMap = none) : s.Fresh := by
  refine ⟨?_, hcavities, hmap⟩
  intro c hc l n hmem
  rw [hcache c hc] at hmem
  cases hmem

theorem Fresh.faithful (h : s.Fresh) : s.Faithful := by
  constructor
  · refine ⟨rfl, rfl, h.reader, ?_⟩
    intro found hfound
    rw [h.byteMap] at hfound
    cases hfound
  · intro found hfound
    rw [h.cavities] at hfound
    cases hfound

structure Kept (s s' : Session) : Prop where
  trace : s'.trace = s.trace
  settings : s'.settings = s.settings
  width : s'.width = s.width

theorem Kept.trans {s₁ s₂ s₃ : Session} (h : Kept s₁ s₂) (h' : Kept s₂ s₃) : Kept s₁ s₃ :=
  ⟨h'.trace.trans h.trace, h'.settings.trans h.settings, h'.width.trans h.width⟩

theorem kept_reading (h : s.reader.Sound) {α : Type} (p : Lookup α) :
    Kept s (s.reading (s.reader.run p).2) :=
  ⟨(h.run p).2.2, rfl, rfl⟩

theorem Step.kept (step : Step s s') (h : s.reader.Sound) : Kept s s' := by
  cases step with
  | same => exact ⟨rfl, rfl, rfl⟩
  | looked p => exact kept_reading h p
  | cavities =>
      unfold withCavities
      split
      · exact ⟨rfl, rfl, rfl⟩
      · have hkept := kept_reading h (s.trace.cavities s.settings.cavityOptions)
        exact ⟨hkept.trace, rfl, rfl⟩
  | byteMap =>
      unfold withByteMap
      split
      · exact ⟨rfl, rfl, rfl⟩
      · have hkept := kept_reading h (s.trace.byteMap s.settings.options.progressInterval)
        exact ⟨hkept.trace, rfl, rfl⟩

theorem cavities_withByteMap (s : Session) : s.withByteMap.2.2.cavities = s.cavities := by
  unfold withByteMap
  split
  · rfl
  · rfl

theorem cavities_withCavities (s : Session) :
    s.withCavities.2.2.cavities = some s.withCavities.1 := by
  unfold withCavities
  split
  · rename_i hfound
    exact hfound
  · rfl

theorem Faithful.look {α : Type} (h : s.Faithful) (p : Lookup α) (output : α -> Text) :
    (s.look p output).output = output (p.run s.trace) :=
  congrArg output (h.honest.reader.run p).1

theorem Faithful.withCavities (h : s.Faithful) :
    s.withCavities.1 = ((s.trace.cavities s.settings.cavityOptions).run s.trace).2 := by
  unfold Session.withCavities
  split
  · rename_i found hfound
    exact (h.cavities found hfound).symm
  · exact congrArg Prod.snd (h.honest.reader.run _).1

theorem Faithful.withByteMap (h : s.Faithful) :
    s.withByteMap.1 =
      ((s.trace.byteMap s.settings.options.progressInterval).run s.trace).2 :=
  h.honest.withByteMap.1

theorem Step.cavities_eq (step : Step s s') :
    s'.cavities = s.cavities ∨ s'.cavities = some s.withCavities.1 := by
  cases step with
  | same => exact Or.inl rfl
  | looked p => exact Or.inl rfl
  | cavities => exact Or.inr (cavities_withCavities s)
  | byteMap => exact Or.inl (cavities_withByteMap s)

theorem Step.faithful (step : Step s s') (h : s.Faithful) : s'.Faithful := by
  have hkept := step.kept h.honest.reader
  constructor
  · rw [hkept.trace, hkept.settings]
    exact step.honest h.honest
  · rw [hkept.trace, hkept.settings]
    intro found hfound
    rcases step.cavities_eq with hsame | hnew
    · exact h.cavities found (hsame.symm.trans hfound)
    · rw [hnew] at hfound
      cases hfound
      exact h.withCavities.symm

theorem Faithful.after (h : s.Faithful) (lines : List Text) :
    (s.after lines).Faithful ∧ Kept s (s.after lines) := by
  refine after_induction (P := fun s' => s'.Faithful ∧ Kept s s') ?_ ⟨h, rfl, rfl, rfl⟩ lines
  intro s₁ s₂ step h₁
  exact ⟨step.faithful h₁.1, h₁.2.trans (step.kept h₁.1.honest.reader)⟩

/-!
## Two sessions on one trace
-/

/-- Two sessions that differ only in what they remember, and where they were started. -/
structure Alike (s s' : Session) : Prop where
  kept : Kept s s'
  left : s.Faithful
  right : s'.Faithful

/-- Whether two answers cannot be told apart by the user. -/
def SameAnswer (r r' : Response) : Prop :=
  r.output = r'.output ∧ r.stop = r'.stop

theorem Alike.look {α : Type} (h : Alike s s') (p : Lookup α) (output : α -> Text) :
    SameAnswer (s.look p output) (s'.look p output) := by
  have hright := h.right.look p output
  rw [h.kept.trace] at hright
  exact ⟨(h.left.look p output).trans hright.symm, rfl⟩

theorem Alike.listCavities (h : Alike s s') (c : Command) :
    SameAnswer (s.listCavities c) (s'.listCavities c) := by
  have hfound : s'.withCavities.1 = s.withCavities.1 := by
    rw [h.left.withCavities, h.right.withCavities, h.kept.trace, h.kept.settings]
  unfold Session.listCavities
  dsimp only
  split
  · exact ⟨rfl, rfl⟩
  · exact ⟨congrArg (cavityLines _) hfound.symm, rfl⟩

theorem Alike.showMapping (h : Alike s s') (c : Command) :
    SameAnswer (s.showMapping c) (s'.showMapping c) := by
  have hfound : s'.withByteMap.1 = s.withByteMap.1 := by
    rw [h.left.withByteMap, h.right.withByteMap, h.kept.trace, h.kept.settings]
  unfold Session.showMapping
  rw [h.kept.trace]
  split
  · split
    · exact ⟨rfl, rfl⟩
    · split
      · exact ⟨rfl, rfl⟩
      · split
        · exact ⟨rfl, rfl⟩
        · exact ⟨congrArg (flowLine _) hfound.symm, rfl⟩
  · exact ⟨rfl, rfl⟩

theorem Alike.perform (h : Alike s s') {name : CommandName} (hname : name ≠ .state)
    (c : Command) : SameAnswer (s.perform name c) (s'.perform name c) := by
  cases name with
  | cavities => exact h.listCavities c
  | exit => exact ⟨rfl, rfl⟩
  | files =>
      change SameAnswer s.files s'.files
      unfold files
      rw [h.kept.trace]
      exact ⟨rfl, rfl⟩
  | help => exact ⟨rfl, rfl⟩
  | info =>
      change SameAnswer s.info s'.info
      unfold info
      rw [h.kept.trace]
      exact h.look _ _
  | mapping => exact h.showMapping c
  | node =>
      change SameAnswer (s.node c) (s'.node c)
      unfold node
      rw [h.kept.trace]
      split
      · exact ⟨rfl, rfl⟩
      · exact h.look _ _
  | sinks =>
      change SameAnswer (s.sinks c) (s'.sinks c)
      unfold sinks
      rw [h.kept.trace]
      split
      · exact ⟨rfl, rfl⟩
      · exact ⟨rfl, rfl⟩
  | sources =>
      change SameAnswer (s.sources c) (s'.sources c)
      unfold sources
      rw [h.kept.trace, h.kept.width]
      split
      · exact ⟨rfl, rfl⟩
      · exact h.look _ _
  | state => exact absurd rfl hname
  | tree =>
      change SameAnswer (s.tree c) (s'.tree c)
      unfold tree
      split
      · exact ⟨rfl, rfl⟩
      · exact ⟨rfl, rfl⟩
      · exact h.look _ _

theorem text_of_ofText? {t : Text} {name : CommandName}
    (h : CommandName.ofText? t = some name) : name.text = t := by
  have hfound := List.find?_some h
  simpa using hfound

theorem Alike.interpret (h : Alike s s') {line : Text}
    (hline : (Command.ofLine line).name ≠ CommandName.state.text) :
    SameAnswer (s.interpret line) (s'.interpret line) := by
  unfold Session.interpret
  dsimp only
  split
  · exact ⟨rfl, rfl⟩
  · split
    · rename_i name hname
      apply h.perform
      intro hstate
      subst hstate
      exact hline (text_of_ofText? hname).symm
    · exact ⟨rfl, rfl⟩

/-- The answer to a line does not depend on what was asked before.  After any lines, a
session shows the same on the terminal and ends in the same cases as a fresh session on the
trace with the same settings and width, whether they read through a cache or not.  The
line may have any command but the one that shows the state. -/
theorem interpret_after_any_history (s fresh : Session) (lines : List Text) (line : Text)
    (hs : s.Fresh) (hfresh : fresh.Fresh) (htrace : fresh.trace = s.trace)
    (hsettings : fresh.settings = s.settings) (hwidth : fresh.width = s.width)
    (hline : (Command.ofLine line).name ≠ CommandName.state.text) :
    onTerminal ((s.after lines).interpret line).output =
        onTerminal (fresh.interpret line).output ∧
      ((s.after lines).interpret line).stop = (fresh.interpret line).stop := by
  rcases hs.faithful.after lines with ⟨hfaithful, hkept⟩
  have halike : Alike fresh (s.after lines) := by
    refine ⟨⟨?_, ?_, ?_⟩, hfresh.faithful, hfaithful⟩
    · exact hkept.trace.trans htrace.symm
    · exact hkept.settings.trans hsettings.symm
    · exact hkept.width.trans hwidth.symm
  rcases halike.interpret hline with ⟨houtput, hstop⟩
  exact ⟨congrArg onTerminal houtput.symm, hstop.symm⟩

/-- Two bytes of a file and their union, which is written to another file. -/
def relay : Trace where
  headers := [⟨"in", 3, 1, 3⟩, ⟨"out", 4, 0, 0⟩]
  labelCount := 4
  sinks := [⟨3, 0, 1⟩]
  taints := [⟨1, 0, 3⟩]
  decode := fun l =>
    match l.toNat with
    | 1 => .ok ⟨.source 0 0, false⟩
    | 2 => .ok ⟨.source 0 1, false⟩
    | 3 => .ok ⟨.union 2 1, false⟩
    | _ => .error ⟨l, 3⟩

theorem interpret_after_any_history_relay :
    onTerminal (((⟨[], [], [], .default, 80, ⟨relay, some ⟨1, []⟩⟩, none, none⟩ : Session).after
      ["cavities", "mapping 0 1", "exit", "tree 3"]).interpret "cavities i").output =
    "\x1b[32mNo cavity found.\x1b[0m\r\n" := by
  have hcached : Fresh ⟨[], [], [], .default, 80, ⟨relay, some ⟨1, []⟩⟩, none, none⟩ :=
    fresh_of_empty (by simp) rfl rfl
  have hplain : Fresh ⟨[], [], [], .default, 80, ⟨relay, none⟩, none, none⟩ :=
    fresh_of_empty (by simp) rfl rfl
  have hanswer : onTerminal ((⟨[], [], [], .default, 80, ⟨relay, none⟩, none, none⟩ :
      Session).interpret "cavities i").output = "\x1b[32mNo cavity found.\x1b[0m\r\n" := by
    decide +kernel
  rw [← hanswer]
  exact (interpret_after_any_history _ _ _ "cavities i" hcached hplain rfl rfl rfl
    (by decide)).1

end Session
end TaintTrace

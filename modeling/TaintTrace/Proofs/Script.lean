import Mathlib
import TaintTrace.Proofs.Cache
import TaintTrace.Tool.Basic

/-!
# Runs of scripts

A script runs on a world step by step, and so does an action, which goes on only as long as
nothing fails.  Messages end up on their channels and leave files alone.  What a tool has
prepared is the trace of a file that could be read.
-/

namespace TaintTrace

variable {α β : Type}

/-!
## Steps
-/

namespace Script

theorem run_bind (p : Script α) (f : α -> Script β) (w : World) :
    (p >>= f).run w = (f (p.run w).1).run (p.run w).2 := by
  show (p.bind f).run w = _
  induction p generalizing w with
  | done a => rfl
  | readFile path next ih => exact ih _ w
  | mapFile path next ih => exact ih _ w
  | makeDirectory path next ih =>
      rw [bind, run, run]
      cases w.files.makeDirectory path with
      | error e => exact ih _ w
      | ok files => exact ih _ _
  | makeTempDirectory directory start finish next ih =>
      rw [bind, run, run]
      split
      · exact ih _ w
      · exact ih _ _
  | makeTempFile directory start finish next ih =>
      rw [bind, run, run]
      split
      · exact ih _ w
      · exact ih _ _
  | writeFile path content next ih =>
      rw [bind, run, run]
      cases w.files.write path content with
      | error e => exact ih _ w
      | ok files => exact ih _ _
  | print channel text next ih => exact ih _
  | note m next ih => exact ih _
  | clock next ih => exact ih _ w

def World.noted (w : World) (threshold : Int) (log : Log) : World :=
  (log.filter (Message.shownAt threshold)).foldl
    (fun w m => w.print (World.channelOf m.level) m.line) w

theorem run_notes (threshold : Int) (log : Log) (w : World) :
    (notes threshold log).run w = ((), w.noted threshold log) := by
  unfold notes World.noted
  induction log.filter (Message.shownAt threshold) generalizing w with
  | nil => rfl
  | cons m log ih => exact ih _

namespace World

variable {w : World} {threshold : Int} {log : Log}

theorem files_print (w : World) (channel : Channel) (text : Text) :
    (w.print channel text).files = w.files := by
  cases channel <;> rfl

theorem print_print (w : World) (channel : Channel) (a b : Text) :
    (w.print channel a).print channel b = w.print channel (a ++ b) := by
  cases channel <;> simp [print]

theorem files_noted : (w.noted threshold log).files = w.files := by
  unfold noted
  induction log.filter (Message.shownAt threshold) generalizing w with
  | nil => rfl
  | cons m log ih =>
      rw [List.foldl_cons, ih, files_print]

theorem output_noted (h : forall m, m ∈ log -> m.level ≠ .error) :
    (w.noted threshold log).output = w.output ++ log.render threshold := by
  unfold noted Log.render Log.shown
  have hshown : forall m, m ∈ log.filter (Message.shownAt threshold) -> m.level ≠ .error :=
    fun m hm => h m (List.mem_of_mem_filter hm)
  revert hshown
  induction log.filter (Message.shownAt threshold) generalizing w with
  | nil =>
      intro _
      exact (List.append_nil _).symm
  | cons m log ih =>
      intro hshown
      have hchannel : channelOf m.level = .output := if_neg (hshown m List.mem_cons_self)
      rw [List.foldl_cons, ih (fun m hm => hshown m (List.mem_cons_of_mem _ hm)), hchannel,
        List.map_cons, List.flatten_cons, ← List.append_assoc]
      rfl

end World
end Script

open Script (World)

/-!
## Actions
-/

namespace Action

/-- What an action ends with on a world, and the world it leaves. -/
def runOn (x : Action α) (w : World) : Except ToolFault α × World :=
  (ExceptT.run x).run w

variable {w after : World}

theorem runOn_pure (a : α) (w : World) : (pure a : Action α).runOn w = (.ok a, w) := rfl

theorem runOn_lift (p : Script α) (w : World) :
    runOn (ExceptT.lift p) w = (.ok (p.run w).1, (p.run w).2) := by
  show (p >>= fun a => pure (Except.ok a)).run w = _
  rw [Script.run_bind]
  rfl

theorem runOn_bind (x : Action α) (f : α -> Action β) (w : World) :
    (x >>= f).runOn w =
      match x.runOn w with
      | (.ok a, w) => (f a).runOn w
      | (.error e, w) => (.error e, w) := by
  unfold runOn
  rw [ExceptT.run_bind, Script.run_bind]
  rcases (ExceptT.run x).run w with ⟨e | a, w'⟩
  · rfl
  · rfl

theorem runOn_bind_ok {x : Action α} {f : α -> Action β} {b : β}
    (h : (x >>= f).runOn w = (.ok b, after)) :
    exists a between, x.runOn w = (.ok a, between) ∧ (f a).runOn between = (.ok b, after) := by
  rw [runOn_bind] at h
  rcases hx : x.runOn w with ⟨e | a, between⟩
  · rw [hx] at h
    cases h
  · rw [hx] at h
    exact ⟨a, between, rfl, h⟩

end Action

/-!
## Workspaces
-/

namespace Workspace

variable {w after : World}

theorem runOn_logAll (s : Settings) (log : Log) (w : World) :
    (logAll s log).runOn w = (.ok (), w.noted s.logLevel log) := by
  rw [logAll, Action.runOn_lift, Script.run_notes]

theorem runOn_log (s : Settings) (level : Level) (text : Text) (w : World) :
    (log s level text).runOn w = (.ok (), w.noted s.logLevel [⟨level, text⟩]) := by
  exact runOn_logAll s [⟨level, text⟩] w

theorem runOn_say (text : Text) (w : World) :
    (say text).runOn w = (.ok (), w.print .output text) := by
  rw [say, Action.runOn_lift]
  rfl

theorem openImage_ok {path : Text} {content : Except FileFault (Except FileCause Text)}
    {t : Trace} (h : openImage path content = .ok t) :
    exists bytes r, Image.read bytes = .ok r ∧ r.trace = t := by
  unfold openImage at h
  split at h
  · cases h
  · cases h
  · rename_i bytes
    split at h
    · cases h
    · rename_i r hread
      cases h
      exact ⟨bytes, r, hread, rfl⟩

theorem openTrace_ok {path : Text} {s : Settings} {reader : TraceReader}
    (h : (openTrace path s).runOn w = (.ok reader, after)) :
    exists bytes r, Image.read bytes = .ok r ∧
      reader = ⟨r.trace, Cache.create? s.options.decodeCacheSize⟩ := by
  unfold openTrace at h
  rcases Action.runOn_bind_ok h with ⟨content, between, _, hopened⟩
  cases himage : openImage path content with
  | error e =>
      rw [himage] at hopened
      cases hopened
  | ok t =>
      rw [himage] at hopened
      rcases Action.runOn_bind_ok hopened with ⟨_, _, _, hreader⟩
      cases hreader
      rcases openImage_ok himage with ⟨bytes, r, hread, rfl⟩
      exact ⟨bytes, r, hread, rfl⟩

theorem sound_create? (t : Trace) (size : Int) : TraceReader.Sound ⟨t, Cache.create? size⟩ := by
  intro c hc
  unfold Cache.create? at hc
  split at hc
  · cases hc
  · cases hc
    intro l n hn
    cases hn

theorem prepare_ok {tool : Text} {o : SharedOptions} {args : List Text} {ws : Workspace}
    (h : (prepare tool o args).runOn w = (.ok ws, after)) :
    exists bytes r, Image.read bytes = .ok r ∧ ws.trace = r.trace ∧ ws.reader.Sound := by
  unfold prepare at h
  split at h
  · rcases Action.runOn_bind_ok h with ⟨s, _, _, hopened⟩
    rcases Action.runOn_bind_ok hopened with ⟨reader, _, hreader, hlogged⟩
    rcases Action.runOn_bind_ok hlogged with ⟨_, _, _, hready⟩
    cases hready
    rcases openTrace_ok hreader with ⟨bytes, r, hread, rfl⟩
    exact ⟨bytes, r, hread, rfl, sound_create? _ _⟩
  · cases h

/-- Without a configuration file, a trace that can be read is opened and the tool named. -/
theorem runOn_prepare {tool path bytes : Text} {o : SharedOptions} {r : Recording}
    (hconfig : o.configPath = []) (hfile : w.files.find path = .ok (.file bytes))
    (hread : Image.read bytes = .ok r) :
    (prepare tool o [path]).runOn w =
      (.ok ⟨path, raiseLevel o.verbose .default,
          ⟨r.trace, Cache.create? (raiseLevel o.verbose .default).options.decodeCacheSize⟩⟩,
        (w.noted (raiseLevel o.verbose .default).logLevel
            [⟨.debug, openedText path r.trace⟩]).noted
          (raiseLevel o.verbose .default).logLevel
            [⟨.info, "polyprocess " ++ tool ++ " - " ++ toolVersion⟩]) := by
  have hsettings : (settingsFor o).runOn w = (.ok (raiseLevel o.verbose .default), w) := by
    unfold settingsFor
    rw [hconfig]
    rfl
  have hmapped : Action.runOn (ExceptT.lift (.mapFile path .done)) w =
      (.ok (.ok (.ok bytes)), w) := by
    rw [Action.runOn_lift, Script.run, hfile]
    rfl
  have hopened : openImage path (.ok (.ok bytes)) = .ok r.trace := by
    rw [openImage, hread]
  unfold prepare
  rw [Action.runOn_bind, hsettings]
  dsimp only
  rw [Action.runOn_bind, openTrace, Action.runOn_bind, hmapped]
  dsimp only
  rw [hopened]
  dsimp only
  rw [Action.runOn_bind, runOn_log]
  dsimp only
  rw [Action.runOn_pure]
  dsimp only
  rw [Action.runOn_bind, runOn_log]
  rfl

theorem runOn_writeReport {s : Settings} {path content : Text} (hpath : path ≠ []) (w : World) :
    (writeReport s path content).runOn w =
      match w.files.write path content with
      | .error e => (.error (.reportNotOpened e), w)
      | .ok files =>
          (.ok (), World.noted { w with files := files } s.logLevel
            [⟨.info, "Report written in " ++ path⟩]) := by
  have hempty : path.isEmpty = false := by
    cases path with
    | nil => exact absurd rfl hpath
    | cons b path => rfl
  unfold writeReport
  rw [hempty]
  rw [if_neg Bool.false_ne_true, Action.runOn_bind, Action.runOn_lift, Script.run]
  cases w.files.write path content with
  | error e => rfl
  | ok files => exact runOn_log s .info _ _

end Workspace

/-!
## Tools
-/

namespace Tool

theorem run_explain (message : Text) (w : World) :
    exists text, (explain message).run w = ((), w.print .error text) := by
  unfold explain
  rw [Script.run_bind]
  cases Hint.find? message with
  | none => exact ⟨_, rfl⟩
  | some hint => exact ⟨_, congrArg (Prod.mk ()) (World.print_print w .error _ _)⟩

theorem run_start {σ : Type} {purpose : Text} {flags : List (Flag σ)} {options o : σ}
    {action : σ -> List Text -> Action Unit} {words args : List Text} {w : World}
    (hflags : Flag.read flags words options = .ok (o, args)) :
    (start purpose flags options action words).run w =
      match (action o args).runOn w with
      | (.ok (), after) => (.success, after)
      | (.error e, after) => (.failure, ((explain e.message).run after).2) := by
  unfold start
  rw [hflags]
  dsimp only
  rw [Script.run_bind, Action.runOn]
  rcases (ExceptT.run (action o args)).run w with ⟨e | _, after⟩
  · dsimp only
    rw [Script.run_bind]
    rfl
  · rfl

end Tool
end TaintTrace

import Mathlib
import TaintTrace.Proofs.Image
import TaintTrace.Proofs.Numeral
import TaintTrace.Proofs.Order
import TaintTrace.Proofs.Safety
import TaintTrace.Proofs.Script

/-!
# The label that is rendered

The tool that renders labels takes a number of 64 bits and renders the label of its lower 32
bits.  If the trace has this label, the list or the drawing is that of its ancestry, otherwise
the tool fails.  When the tool fails, it has written nothing but messages.
-/

namespace TaintTrace

theorem Flag.read_natural {σ : Type} {flags : List (Flag σ)} {f : Flag σ} {word name : Text}
    {change : Nat -> σ -> σ} {n : Nat} (hword : Word.ofText word = .flag name none)
    (hfind : find flags name = .ok f) (hkind : f.kind = .natural change)
    (hn : n ≤ Numeral.max64) (rest : List Text) (o : σ) :
    read flags (word :: Text.ofNat n :: rest) o = read flags rest (change n o) := by
  have htruth : ¬ f.isTruth = true := by
    rw [isTruth, hkind]
    exact Bool.false_ne_true
  have hset : f.set (Text.ofNat n) o = .ok (change n o) := by
    rw [set, hkind]
    dsimp only
    rw [Numeral.natural_ofNat hn]
  rw [read, hword]
  dsimp only
  rw [hfind]
  dsimp only
  rw [if_neg htruth, hset]

/-!
## Ancestries
-/

namespace Ancestry

variable {nodes : Label -> Except InvalidLabel Node} {l : Label} {limit : Int} {a : Ancestry}

theorem Answers.lists (h : Answers nodes l limit (.ok a)) : Lists nodes l a := by
  cases h with
  | all _ hall _ => exact hall.toLists
  | some _ hlists _ _ _ => exact hlists

theorem Answers.exists_decode (h : Answers nodes l limit (.ok a)) : exists n, nodes l = .ok n := by
  cases h with
  | all _ hall _ => exact hall.decodes .refl
  | some _ hlists hlimit hlength _ =>
      have hpos : 0 < a.nodes.length := by omega
      rcases List.exists_mem_of_length_pos hpos with ⟨⟨m, n⟩, hm⟩
      rcases hlists.decoded m n hm with ⟨hdepends, hdecode⟩
      rcases Relation.ReflTransGen.cases_head hdepends with rfl | ⟨c, hrefers, _⟩
      · exact ⟨n, hdecode⟩
      · rcases hrefers with ⟨n', hn', _⟩
        exact ⟨n', hn'⟩

theorem sorted_perm (a : Ancestry) : a.sorted.Perm a.nodes :=
  List.mergeSort_perm _ _

theorem nodup_sorted (h : (a.nodes.map Prod.fst).Nodup) : (a.sorted.map Prod.fst).Nodup :=
  ((sorted_perm a).map Prod.fst).nodup_iff.mpr h

end Ancestry

theorem Trace.Consistent.le_of_depends {t : Trace} (ht : t.Consistent) {l m : Label}
    (hl : t.HasLabel l) (h : Sources.Depends t.decode l m) : m ≤ l := by
  induction h with
  | refl => exact UInt32.le_refl l
  | tail hdepends hrefers ih =>
      rcases hrefers with ⟨n, hn, hc⟩
      rcases ht.nodes _ (ht.closedUnder.of_depends hl hdepends).mem_labels with ⟨n', hn', hfits⟩
      rw [hn] at hn'
      cases hn'
      exact UInt32.le_trans (UInt32.le_of_lt (hfits.children _ hc).2) ih

namespace RenderTool

open Script (World)

theorem read_label {n : Nat} (hn : n ≤ Numeral.max64) (rest : List Text) (o : Options) :
    Flag.read flags ("-label" :: Text.ofNat n :: rest) o =
      Flag.read flags rest { o with label := n } := by
  have hword : Flag.Word.ofText "-label" = .flag "label" none := by decide
  have hflag : exists f, Flag.find flags "label" = .ok f ∧
      f.kind = .natural fun n o => { o with label := n } := ⟨_, rfl, rfl⟩
  rcases hflag with ⟨f, hfind, hkind⟩
  exact Flag.read_natural hword hfind hkind hn rest o

theorem toNat_labelOf (o : Options) : (labelOf o).toNat = o.label % Label.total := by
  rw [labelOf, UInt32.toNat_ofNat']
  rfl

/-!
## Graphs of ancestries
-/

variable {t : Trace} {o : Options} {l : Label} {a : Ancestry}

theorem mem_labels_graphOf {m : Label} :
    m ∈ (graphOf t a).labels <-> m ∈ a.nodes.map Prod.fst := by
  rw [graphOf, (TaintGraph.labels_ofNodes_perm _ _).mem_iff,
    (a.sorted_perm.map Prod.fst).mem_iff]

theorem mem_order (h : (a.nodes.map Prod.fst).Nodup) {order : List Label}
    (horder : (graphOf t a).topological = .ok order) :
    order.Nodup ∧ forall m, m ∈ order <-> m ∈ a.nodes.map Prod.fst := by
  rcases (TaintGraph.topological_ok_iff (Ancestry.nodup_sorted h)).mp horder with ⟨_, rfl⟩
  rcases TaintGraph.finishOrder_lists (TaintGraph.closed_ofNodes t.inputs (Ancestry.nodup_sorted h)) with
    ⟨hnodup, hlists⟩
  exact ⟨hnodup, fun m => (hlists m).trans mem_labels_graphOf⟩

/-- The labels of a trace without problems can be ordered, and the largest comes first. -/
theorem order_of_consistent (ht : t.Consistent) (hl : t.HasLabel l)
    (h : Ancestry.Lists t.decode l a) :
    exists order, (graphOf t a).topological = .ok order ∧ order.Pairwise (· > ·) := by
  have hdistinct := Ancestry.nodup_sorted h.distinct
  have hdescending : TaintGraph.Descending a.sorted := by
    refine TaintGraph.descending_of_consistent ht ?_
    intro m n hm
    rcases h.decoded m n (a.sorted_perm.mem_iff.mp hm) with ⟨hdepends, hdecode⟩
    exact ⟨ht.closedUnder.of_depends hl hdepends, hdecode⟩
  refine ⟨_, (TaintGraph.topological_ok_iff hdistinct).mpr ⟨hdescending.not_onCycle, rfl⟩, ?_⟩
  rw [TaintGraph.finishOrder_ofNodes_descending hdistinct hdescending]
  exact List.pairwise_reverse.mpr (TaintGraph.labels_ofNodes_pairwise hdistinct)

theorem eq_cons_of_pairwise {order : List Label} (h : order.Pairwise (· > ·)) (hl : l ∈ order)
    (hle : forall m, m ∈ order -> m ≤ l) : exists rest, order = l :: rest := by
  cases order with
  | nil => cases hl
  | cons m rest =>
      rcases List.mem_cons.mp hl with rfl | hrest
      · exact ⟨rest, rfl⟩
      · have hlt := (List.pairwise_cons.mp h).1 l hrest
        exact absurd (hle m List.mem_cons_self) (UInt32.not_le.mpr hlt)

/-!
## What is rendered
-/

/-- What a text can be that shows an ancestry: a list of its labels, each once and with its
node, or a drawing of the graph of its labels. -/
inductive Shows (t : Trace) (o : Options) (l : Label) (a : Ancestry) : Text -> Prop where
  | list {order : List Label} : o.list = true -> order.Nodup ->
      (forall m, m ∈ order <-> m ∈ a.nodes.map Prod.fst) -> Shows t o l a (listing a order)
  | drawing : o.list = false ->
      (forall m, m ∈ (graphOf t a).labels <-> m ∈ a.nodes.map Prod.fst) ->
      Shows t o l a (Dot.draw (graphOf t a) ("label" ++ l.text))

theorem shows_rendered (h : (a.nodes.map Prod.fst).Nodup) {text : Text}
    (htext : rendered t o l a = .ok text) : Shows t o l a text := by
  unfold rendered at htext
  split at htext
  · rename_i hlist
    split at htext
    · rename_i order horder
      cases htext
      rcases mem_order h horder with ⟨hnodup, hmem⟩
      exact .list hlist hnodup hmem
    · cases htext
  · rename_i hlist
    cases htext
    exact .drawing (Bool.not_eq_true _ ▸ hlist) fun m => mem_labels_graphOf

theorem exists_lookup {nodes : List (Label × Node)} (h : l ∈ nodes.map Prod.fst) :
    exists n, nodes.lookup l = some n ∧ (l, n) ∈ nodes := by
  cases hlookup : nodes.lookup l with
  | none =>
      rcases List.mem_map.mp h with ⟨entry, hentry, rfl⟩
      have hne := List.lookup_eq_none_iff.mp hlookup entry hentry
      simp at hne
  | some n =>
      rcases List.lookup_eq_some_iff.mp hlookup with ⟨before, after, hnodes, _⟩
      rw [hnodes]
      exact ⟨n, rfl, List.mem_append_right before List.mem_cons_self⟩

theorem listing_first (ht : t.Consistent) (hl : t.HasLabel l)
    (hall : Ancestry.ListsAll t.decode l a) {order : List Label}
    (horder : (graphOf t a).topological = .ok order) :
    exists n rest, t.decode l = .ok n ∧
      listing a order = l.text ++ "\t" ++ n.text ++ "\n" ++ rest := by
  rcases order_of_consistent ht hl hall.toLists with ⟨order', horder', hpairwise⟩
  rw [horder] at horder'
  cases horder'
  have hmem := (mem_order hall.distinct horder).2
  have hself : l ∈ a.nodes.map Prod.fst := (hall.all l).mpr .refl
  have hle : forall m, m ∈ order -> m ≤ l := by
    intro m hm
    exact ht.le_of_depends hl ((hall.all m).mp ((hmem m).mp hm))
  rcases eq_cons_of_pairwise hpairwise ((hmem l).mpr hself) hle with ⟨rest, rfl⟩
  rcases exists_lookup hself with ⟨n, hlookup, hn⟩
  refine ⟨n, listing a rest, (hall.decoded l n hn).2, ?_⟩
  rw [listing, List.flatMap_cons, hlookup]
  rfl

/-!
## Runs
-/

variable {args words : List Text} {ws : Workspace} {w prepared after : World}
  {ended : Except ToolFault Unit} {outcome : Outcome}

def warned (ws : Workspace) (o : Options) (w : World) (a : Ancestry) : World :=
  w.noted ws.settings.logLevel (warnings (labelOf o) a)

/-- How a run ends that could be prepared, from the world that this leaves. -/
inductive Ends (ws : Workspace) (o : Options) (w : World) : Except ToolFault Unit -> World -> Prop
  | lost {e : InvalidLabel} :
      Ancestry.Answers ws.trace.decode (labelOf o) o.maxNodes (.error e) ->
      Ends ws o w (.error (.notRendered (labelOf o) e)) w
  | unordered {a : Ancestry} {e : ToolFault} :
      Ancestry.Answers ws.trace.decode (labelOf o) o.maxNodes (.ok a) ->
      rendered ws.trace o (labelOf o) a = .error e -> Ends ws o w (.error e) (warned ws o w a)
  | printed {a : Ancestry} {text : Text} :
      Ancestry.Answers ws.trace.decode (labelOf o) o.maxNodes (.ok a) ->
      rendered ws.trace o (labelOf o) a = .ok text -> (o.list || o.out.isEmpty) = true ->
      Ends ws o w (.ok ()) ((warned ws o w a).print .output text)
  | written {a : Ancestry} {text : Text} {files : FileTree} :
      Ancestry.Answers ws.trace.decode (labelOf o) o.maxNodes (.ok a) ->
      rendered ws.trace o (labelOf o) a = .ok text -> (o.list || o.out.isEmpty) = false ->
      w.files.write o.out text = .ok files ->
      Ends ws o w (.ok ()) (World.noted { warned ws o w a with files := files }
        ws.settings.logLevel [⟨.info, "Report written in " ++ o.out⟩])
  | unwritten {a : Ancestry} {text : Text} {e : FileFault} :
      Ancestry.Answers ws.trace.decode (labelOf o) o.maxNodes (.ok a) ->
      rendered ws.trace o (labelOf o) a = .ok text -> (o.list || o.out.isEmpty) = false ->
      w.files.write o.out text = .error e ->
      Ends ws o w (.error (.reportNotOpened e)) (warned ws o w a)

theorem run_render (t : Trace) (o : Options) :
    (render t o).run t =
      match (Lookup.ancestry (labelOf o) o.maxNodes).run t with
      | .error e => ([], .error (.notRendered (labelOf o) e))
      | .ok a => (warnings (labelOf o) a, rendered t o (labelOf o) a) := by
  unfold render Lookup.run
  rw [Lookup.answer_bind]
  cases (Lookup.ancestry (labelOf o) o.maxNodes).answer t.decode with
  | error e => rfl
  | ok a => rfl

theorem run_ends (hlabel : o.label ≠ 0)
    (hprepare : (Workspace.prepare "render" o.shared args).runOn w = (.ok ws, prepared))
    (hrun : (run o args).runOn w = (ended, after)) : Ends ws o prepared ended after := by
  rcases Workspace.prepare_ok hprepare with ⟨_, _, _, _, hsound⟩
  have hrendered := (hsound.run (render ws.trace o)).1
  have hanswers : Ancestry.Answers ws.trace.decode (labelOf o) o.maxNodes
      ((Lookup.ancestry (labelOf o) o.maxNodes).run ws.trace) :=
    Ancestry.ancestry_answers ws.trace.decode (labelOf o) o.maxNodes
  unfold run at hrun
  rw [if_neg hlabel, Action.runOn_bind, hprepare] at hrun
  dsimp only at hrun
  rcases hresult : ws.reader.run (render ws.trace o) with ⟨⟨log, result⟩, reader⟩
  rw [hresult] at hrun hrendered
  dsimp only at hrun hrendered
  rw [Action.runOn_bind, Workspace.runOn_logAll] at hrun
  replace hrendered : (log, result) = _ := hrendered.trans (run_render ws.trace o)
  cases hancestry : (Lookup.ancestry (labelOf o) o.maxNodes).run ws.trace with
  | error e =>
      rw [hancestry] at hrendered hanswers
      cases hrendered
      cases hrun
      exact .lost hanswers
  | ok a =>
      rw [hancestry] at hrendered hanswers
      cases hrendered
      dsimp only at hrun
      cases htext : rendered ws.trace o (labelOf o) a with
      | error e =>
          rw [htext] at hrun
          cases hrun
          exact .unordered hanswers htext
      | ok text =>
          rw [htext] at hrun
          dsimp only at hrun
          split at hrun
          · rename_i hprinted
            rw [Workspace.runOn_say] at hrun
            cases hrun
            exact .printed hanswers htext hprinted
          · rename_i hwritten
            rw [Bool.not_eq_true] at hwritten
            have hout : o.out ≠ [] := by
              intro hempty
              rw [hempty, Bool.or_eq_false_iff] at hwritten
              cases hwritten.2
            rw [Workspace.runOn_writeReport hout, World.files_noted] at hrun
            cases hfiles : prepared.files.write o.out text with
            | error e =>
                rw [hfiles] at hrun
                cases hrun
                exact .unwritten hanswers htext hwritten hfiles
            | ok files =>
                rw [hfiles] at hrun
                cases hrun
                exact .written hanswers htext hwritten hfiles

theorem level_of_mem_warnings {m : Message} (h : m ∈ warnings l a) : m.level = .warn := by
  unfold warnings at h
  split at h
  · cases h
  · cases List.mem_singleton.mp h
    rfl

theorem output_warned (ws : Workspace) (o : Options) (w : World) (a : Ancestry) :
    (warned ws o w a).output =
      w.output ++ (warnings (labelOf o) a).render ws.settings.logLevel := by
  refine World.output_noted ?_
  intro m hm herror
  rw [level_of_mem_warnings hm] at herror
  cases herror

theorem Ends.failed {e : ToolFault} (h : Ends ws o w (.error e) after) :
    after.files = w.files ∧ exists log : Log, (forall m, m ∈ log -> m.level = .warn) ∧
      after.output = w.output ++ log.render ws.settings.logLevel := by
  cases h with
  | lost => exact ⟨rfl, [], by simp, (List.append_nil _).symm⟩
  | unordered =>
      exact ⟨World.files_noted, _, fun m => level_of_mem_warnings, output_warned ws o w _⟩
  | unwritten =>
      exact ⟨World.files_noted, _, fun m => level_of_mem_warnings, output_warned ws o w _⟩

/-- Where a text goes: to the output after the warnings, or to the file that was asked for. -/
def Delivered (ws : Workspace) (o : Options) (a : Ancestry) (text : Text) (before after : World) :
    Prop :=
  if (o.list || o.out.isEmpty) = true then
    after.files = before.files ∧ after.output =
      before.output ++ (warnings (labelOf o) a).render ws.settings.logLevel ++ text
  else
    before.files.write o.out text = .ok after.files ∧ after.output =
      before.output ++ (warnings (labelOf o) a).render ws.settings.logLevel ++
        Log.render ws.settings.logLevel [⟨.info, "Report written in " ++ o.out⟩]

theorem Ends.succeeded (h : Ends ws o w (.ok ()) after) :
    exists a text, Ancestry.Answers ws.trace.decode (labelOf o) o.maxNodes (.ok a) ∧
      rendered ws.trace o (labelOf o) a = .ok text ∧ Delivered ws o a text w after := by
  cases h with
  | @printed a text hanswers htext hprinted =>
      refine ⟨a, text, hanswers, htext, ?_⟩
      rw [Delivered, if_pos hprinted, ← output_warned]
      exact ⟨(World.files_print _ _ _).trans World.files_noted, rfl⟩
  | @written a text files hanswers htext hwritten hfiles =>
      refine ⟨a, text, hanswers, htext, ?_⟩
      rw [Delivered, if_neg (by rw [hwritten]; exact Bool.false_ne_true), ← output_warned]
      refine ⟨?_, World.output_noted (by simp)⟩
      rw [World.files_noted]
      exact hfiles

theorem Ends.ok_of_consistent (ht : ws.trace.Consistent) (hl : ws.trace.HasLabel (labelOf o))
    (hprinted : (o.list || o.out.isEmpty) = true) (h : Ends ws o w ended after) :
    ended = .ok () := by
  cases h with
  | lost hanswers =>
      rcases hanswers.ancestor with ⟨m, hm, he⟩
      rcases ht.closedUnder.decodes hl hm with ⟨n, hn⟩
      rw [he] at hn
      cases hn
  | @unordered a e hanswers hfault =>
      rcases order_of_consistent ht hl hanswers.lists with ⟨order, horder, _⟩
      unfold rendered at hfault
      rw [horder] at hfault
      split at hfault
      · cases hfault
      · cases hfault
  | printed => rfl
  | written => rfl
  | unwritten _ _ hwritten =>
      rw [hprinted] at hwritten
      cases hwritten

theorem command_cases (hflags : Flag.read flags words {} = .ok (o, args))
    (hrun : (Tool.command ("render" :: words)).run w = (outcome, after)) :
    (outcome = .success ∧ (run o args).runOn w = (.ok (), after)) ∨
    exists e between text, outcome = .failure ∧ (run o args).runOn w = (.error e, between) ∧
      after = between.print .error text := by
  have hcommand : Tool.command ("render" :: words) = Tool.start purpose flags {} run words := rfl
  rw [hcommand, Tool.run_start hflags] at hrun
  rcases hended : (run o args).runOn w with ⟨e | _, between⟩
  · rw [hended] at hrun
    rcases Tool.run_explain e.message between with ⟨text, htext⟩
    dsimp only at hrun
    rw [htext] at hrun
    cases hrun
    exact Or.inr ⟨e, between, text, rfl, rfl, rfl⟩
  · rw [hended] at hrun
    cases hrun
    exact Or.inl ⟨rfl, rfl⟩

theorem runOn_run_zero (hlabel : o.label = 0) (w : World) :
    (run o args).runOn w = (.error .labelExpected, w) := by
  unfold run
  rw [if_pos hlabel]
  rfl

theorem ends_of_success (hflags : Flag.read flags words {} = .ok (o, args))
    (hprepare : (Workspace.prepare "render" o.shared args).runOn w = (.ok ws, prepared))
    (hrun : (Tool.command ("render" :: words)).run w = (.success, after)) :
    Ends ws o prepared (.ok ()) after := by
  rcases command_cases hflags hrun with ⟨_, hended⟩ | ⟨_, _, _, hfailure, _⟩
  · by_cases hlabel : o.label = 0
    · rw [runOn_run_zero hlabel] at hended
      cases hended
    · exact run_ends hlabel hprepare hended
  · cases hfailure

theorem ends_of_failure (hflags : Flag.read flags words {} = .ok (o, args))
    (hprepare : (Workspace.prepare "render" o.shared args).runOn w = (.ok ws, prepared))
    (hrun : (Tool.command ("render" :: words)).run w = (.failure, after)) :
    exists between text, after = between.print .error text ∧
      ((o.label = 0 ∧ between = w) ∨ exists e, Ends ws o prepared (.error e) between) := by
  rcases command_cases hflags hrun with ⟨hsuccess, _⟩ | ⟨e, between, text, _, hended, rfl⟩
  · cases hsuccess
  · refine ⟨between, text, rfl, ?_⟩
    by_cases hlabel : o.label = 0
    · rw [runOn_run_zero hlabel] at hended
      cases hended
      exact Or.inl ⟨hlabel, rfl⟩
    · exact Or.inr ⟨e, run_ends hlabel hprepare hended⟩

theorem hasLabel_of_success (hflags : Flag.read flags words {} = .ok (o, args))
    (hprepare : (Workspace.prepare "render" o.shared args).runOn w = (.ok ws, prepared))
    (hrun : (Tool.command ("render" :: words)).run w = (.success, after)) :
    ws.trace.HasLabel (labelOf o) := by
  rcases (ends_of_success hflags hprepare hrun).succeeded with ⟨a, _, hanswers, _⟩
  rcases Workspace.prepare_ok hprepare with ⟨_, r, _, htrace, _⟩
  have hdecode := hanswers.exists_decode
  rw [htrace] at hdecode ⊢
  rcases (r.decode_ok_iff _).mp hdecode with ⟨hpos, hlt⟩
  exact ⟨Recording.toNat_pos_iff.mp hpos, hlt⟩

theorem success_of_consistent (hflags : Flag.read flags words {} = .ok (o, args))
    (hprepare : (Workspace.prepare "render" o.shared args).runOn w = (.ok ws, prepared))
    (ht : ws.trace.Consistent) (hl : ws.trace.HasLabel (labelOf o))
    (hprinted : (o.list || o.out.isEmpty) = true)
    (hrun : (Tool.command ("render" :: words)).run w = (outcome, after)) :
    outcome = .success := by
  have hlabel : o.label ≠ 0 := by
    intro hzero
    refine hl.1 ?_
    rw [labelOf, hzero]
    rfl
  rcases command_cases hflags hrun with ⟨hsuccess, _⟩ | ⟨e, between, _, _, hended, _⟩
  · exact hsuccess
  · cases (run_ends hlabel hprepare hended).ok_of_consistent ht hl hprinted

/-!
## Main results
-/

/-- Rendering a number renders the label that is this number modulo 2^32.  The tool fails if the
trace has no such label, and when it fails it has written neither a list nor a drawing.  When it
succeeds, it has written the ancestry of the label, and the label itself comes first in a
complete list if the trace has no problems.  A trace without problems is rendered. -/
theorem command_renders_label_mod {words args : List Text} {o : Options} {ws : Workspace}
    {w prepared after : World} {outcome : Outcome}
    (hflags : Flag.read flags words {} = .ok (o, args))
    (hprepare : (Workspace.prepare "render" o.shared args).runOn w = (.ok ws, prepared))
    (hrun : (Tool.command ("render" :: words)).run w = (outcome, after)) :
    (forall n, n ≤ Numeral.max64 -> forall rest p,
      Flag.read flags ("-label" :: Text.ofNat n :: rest) p =
        Flag.read flags rest { p with label := n }) ∧
    (labelOf o).toNat = o.label % Label.total ∧
    (¬ ws.trace.HasLabel (labelOf o) -> outcome = .failure) ∧
    (outcome = .failure ->
      (after.files = w.files ∧ after.output = w.output) ∨
      (after.files = prepared.files ∧ exists log : Log, (forall m, m ∈ log -> m.level = .warn) ∧
        after.output = prepared.output ++ log.render ws.settings.logLevel)) ∧
    (outcome = .success -> exists a text,
      Ancestry.Answers ws.trace.decode (labelOf o) o.maxNodes (.ok a) ∧
      Shows ws.trace o (labelOf o) a text ∧ Delivered ws o a text prepared after ∧
      (o.list = true -> (ws.trace.problems 0).run ws.trace = [] -> a.complete = true ->
        exists n rest, ws.trace.decode (labelOf o) = .ok n ∧
          text = (labelOf o).text ++ "\t" ++ n.text ++ "\n" ++ rest)) ∧
    ((ws.trace.problems 0).run ws.trace = [] -> ws.trace.HasLabel (labelOf o) ->
      (o.list = true ∨ o.out = []) -> outcome = .success) := by
  refine ⟨fun n hn rest p => read_label hn rest p, toNat_labelOf o, ?_, ?_, ?_, ?_⟩
  · intro hnone
    cases outcome with
    | failure => rfl
    | success => exact absurd (hasLabel_of_success hflags hprepare hrun) hnone
  · rintro rfl
    rcases ends_of_failure hflags hprepare hrun with
      ⟨between, text, rfl, ⟨_, rfl⟩ | ⟨e, hends⟩⟩
    · exact Or.inl ⟨World.files_print _ _ _, rfl⟩
    · rcases hends.failed with ⟨hfiles, log, hlog, houtput⟩
      exact Or.inr ⟨(World.files_print _ _ _).trans hfiles, log, hlog, houtput⟩
  · rintro rfl
    rcases (ends_of_success hflags hprepare hrun).succeeded with
      ⟨a, text, hanswers, htext, hdelivered⟩
    have hl := hasLabel_of_success hflags hprepare hrun
    refine ⟨a, text, hanswers, shows_rendered hanswers.lists.distinct htext,
      hdelivered, ?_⟩
    intro hlist hcheck hcomplete
    have ht : ws.trace.Consistent := Validity.problems_eq_nil_iff.mp hcheck
    unfold rendered at htext
    rw [if_pos hlist] at htext
    split at htext
    · rename_i order horder
      cases htext
      exact listing_first ht hl (hanswers.complete hcomplete).1 horder
    · cases htext
  · intro hcheck hl hprinted
    refine success_of_consistent hflags hprepare (Validity.problems_eq_nil_iff.mp hcheck) hl ?_ hrun
    rcases hprinted with hlist | hout
    · rw [hlist, Bool.true_or]
    · rw [hout]
      exact Bool.or_true _

def joined : Recording where
  headers := #[⟨"in", 3, 1, 3⟩]
  words := #[0, 0x8000000000000000, 0x8000000000000001, 0x100000001]
  sinks := #[]
  taints := #[]

theorem problems_joined : (joined.trace.problems 0).run joined.trace = [] := by
  decide +kernel

def desk : World :=
  ⟨FileTree.empty.place "run.tdag" (.file (Image.fileOf joined)), [], []⟩

theorem find_desk : desk.files.find "run.tdag" = .ok (.file (Image.fileOf joined)) := rfl

theorem read_joined : Image.read (Image.fileOf joined) = .ok joined := by
  rw [Image.read_fileOf (by decide) (by decide) (by rw [Image.length_fileOf]; decide)]
  rw [Image.writtenWords_eq rfl]

theorem prepare_desk : exists ws prepared,
    (Workspace.prepare "render" {} ["run.tdag"]).runOn desk = (.ok ws, prepared) ∧
      ws.trace = joined.trace :=
  ⟨_, _, Workspace.runOn_prepare rfl find_desk read_joined, rfl⟩

theorem command_renders_label_mod_joined :
    exists after n before rest,
      (Tool.command ["render", "-label", "3", "-list", "-max-nodes", "0", "run.tdag"]).run desk =
        (.success, after) ∧
      joined.trace.decode 3 = .ok n ∧
      after.output = before ++ ("3" ++ "\t" ++ n.text ++ "\n" ++ rest) := by
  have hflags : Flag.read flags ["-label", "3", "-list", "-max-nodes", "0", "run.tdag"] {} =
      .ok ({ label := 3, list := true, maxNodes := 0 }, ["run.tdag"]) := rfl
  rcases prepare_desk with ⟨ws, prepared, hprepare, htrace⟩
  rcases hrun : (Tool.command
    ["render", "-label", "3", "-list", "-max-nodes", "0", "run.tdag"]).run desk with ⟨outcome, after⟩
  rcases command_renders_label_mod hflags hprepare hrun with ⟨_, _, _, _, hwritten, hsucceeds⟩
  rw [htrace] at hwritten hsucceeds
  have hsuccess := hsucceeds problems_joined ⟨by decide, by decide⟩ (Or.inl rfl)
  rcases hwritten hsuccess with ⟨a, text, hanswers, _, hdelivered, hfirst⟩
  have hcomplete : a.complete = true := by
    cases hc : a.complete with
    | true => rfl
    | false => exact absurd (hanswers.cut hc).2.1 (by decide)
  rcases hfirst rfl problems_joined hcomplete with ⟨n, rest, hn, rfl⟩
  exact ⟨after, n, _, rest, by rw [hsuccess], hn, hdelivered.2⟩

/-- Asked for the label 2^32 + 2 of a trace with three labels, the tool lists label two. -/
theorem command_renders_other_label :
    joined.trace.labelCount ≤ 4294967298 ∧ exists after a text before,
      (Tool.command ["render", "-label", "4294967298", "-list", "run.tdag"]).run desk =
        (.success, after) ∧
      Ancestry.Answers joined.trace.decode 2 1000 (.ok a) ∧
      Shows joined.trace { label := 4294967298, list := true } 2 a text ∧
      after.output = before ++ text := by
  have hflags : Flag.read flags ["-label", "4294967298", "-list", "run.tdag"] {} =
      .ok ({ label := 4294967298, list := true }, ["run.tdag"]) := rfl
  rcases prepare_desk with ⟨ws, prepared, hprepare, htrace⟩
  rcases hrun : (Tool.command
    ["render", "-label", "4294967298", "-list", "run.tdag"]).run desk with ⟨outcome, after⟩
  have ht : ws.trace.Consistent := by
    rw [htrace]
    exact Validity.problems_eq_nil_iff.mp problems_joined
  have hl : ws.trace.HasLabel 2 := by
    rw [htrace]
    exact ⟨by decide, by decide⟩
  cases success_of_consistent hflags hprepare ht hl rfl hrun
  rcases (ends_of_success hflags hprepare hrun).succeeded with
    ⟨a, text, hanswers, htext, hdelivered⟩
  have hshows := shows_rendered hanswers.lists.distinct htext
  rw [htrace] at hanswers hshows
  exact ⟨by decide, after, a, text, _, rfl, hanswers, hshows, hdelivered.2⟩

end RenderTool
end TaintTrace

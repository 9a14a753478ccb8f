import Mathlib
import TaintTrace.Proofs.Numeral
import TaintTrace.Proofs.Truncation
import TaintTrace.Tool.Basic

/-!
# Hints for files that are no traces

Each rule for hints looks for some texts anywhere in a message.  The message about a file that
is rejected ends with the reason, after the path of the file and a colon, and no text that a
rule looks for can reach across that colon but the one for misplaced flags.  So a path that is
no reason for a hint leaves the choice to the reason.  The rule for malformed sections expects
a name of one word, which two kinds of sections do not have.
-/

namespace TaintTrace

/-!
## Texts inside texts
-/

namespace Text

variable {s t part : Text} {c : UInt8}

theorem contains_iff : t.contains part = true <-> part <:+: t := by
  induction t with
  | nil => rw [contains, List.isEmpty_iff, List.infix_nil]
  | cons b rest ih =>
      rw [contains, Bool.or_eq_true, startsWith, List.isPrefixOf_iff_prefix, ih,
        List.infix_cons_iff]

/-- A text without some byte that ends where another one ends begins after that byte. -/
theorem suffix_of_append_eq {before : Text} (h : before ++ part = s ++ c :: t) (hc : c ∉ part) :
    part <:+ t := by
  rcases List.append_eq_append_iff.mp h with ⟨x, _, hpart⟩ | ⟨x, _, hrest⟩
  · rw [hpart] at hc
    exact absurd (List.mem_append_right x List.mem_cons_self) hc
  · rcases List.cons_eq_append_iff.mp hrest with ⟨_, hpart⟩ | ⟨y, _, ht⟩
    · rw [hpart] at hc
      exact absurd List.mem_cons_self hc
    · exact ⟨y, ht.symm⟩

theorem infix_append_cons_iff (hc : c ∉ part) :
    part <:+: s ++ c :: t <-> part <:+: s ∨ part <:+: t := by
  constructor
  · intro h
    rcases h with ⟨before, after, heq⟩
    rcases List.append_eq_append_iff.mp heq with ⟨x, hs, _⟩ | ⟨x, hleft, hright⟩
    · exact Or.inl ⟨before, x, hs.symm⟩
    · rcases List.cons_eq_append_iff.mp hright with ⟨rfl, _⟩ | ⟨y, rfl, rfl⟩
      · rw [List.append_nil] at hleft
        exact Or.inl (hleft ▸ (List.suffix_append before part).isInfix)
      · exact Or.inr ((suffix_of_append_eq hleft hc).isInfix.trans (List.prefix_append y after).isInfix)
  · intro h
    rcases h with h | h
    · exact h.trans (List.prefix_append s (c :: t)).isInfix
    · exact h.trans ((List.suffix_cons c t).trans (List.suffix_append s (c :: t))).isInfix

theorem infix_append_ofNat_iff (hpart : forall b, b ∈ part -> Numeral.isDigit b = false) (n : Nat) :
    part <:+: s ++ (ofNat n ++ t) <-> part <:+: s ∨ part <:+: t := by
  have hdigit : forall d, Numeral.isDigit d = true -> d ∉ part := by
    intro d hd hmem
    rw [hpart d hmem] at hd
    cases hd
  have hskip : forall ds : Text, (forall d, d ∈ ds -> Numeral.isDigit d = true) ->
      (part <:+: ds ++ t <-> part <:+: t) := by
    intro ds hds
    induction ds with
    | nil => rfl
    | cons d ds ih =>
        rw [List.forall_mem_cons] at hds
        have hsplit := infix_append_cons_iff (s := []) (t := ds ++ t) (hdigit d hds.1)
        rw [List.nil_append, ih hds.2, List.infix_nil] at hsplit
        rw [List.cons_append, hsplit, or_iff_right_of_imp]
        intro hnil
        rw [hnil]
        exact List.nil_infix
  have hall : forall d, d ∈ ofNat n -> Numeral.isDigit d = true :=
    fun d hd => Numeral.isDigit_of_mem_ofNat hd
  cases hdigits : ofNat n with
  | nil => exact absurd hdigits (Numeral.ofNat_ne_nil n)
  | cons d ds =>
      rw [hdigits, List.forall_mem_cons] at hall
      rw [List.cons_append, infix_append_cons_iff (hdigit d hall.1), hskip ds hall.2]

theorem infix_append_number_iff (hpart : forall b, b ∈ part -> Numeral.isDigit b = false)
    (n : Nat) : part <:+: s ++ ofNat n <-> part <:+: s := by
  have hsplit := infix_append_ofNat_iff (s := s) (t := []) hpart n
  rw [List.append_nil, List.infix_nil] at hsplit
  rw [hsplit, or_iff_left_of_imp]
  intro hnil
  rw [hnil]
  exact List.nil_infix

/-- Whether no text that begins with `key` can begin inside another text. -/
def Apart (front key : Text) : Prop :=
  forall x, x ∈ front.tails -> x ≠ [] -> ¬ x <+: key ∧ ¬ key <+: x

instance (front key : Text) : Decidable (Apart front key) :=
  inferInstanceAs (Decidable (forall x, x ∈ front.tails -> x ≠ [] -> ¬ x <+: key ∧ ¬ key <+: x))

theorem Apart.infix_append_iff {front key : Text} (h : Apart front key) (hkey : key <+: part) :
    part <:+: front ++ t <-> part <:+: t := by
  constructor
  · intro hfound
    rcases List.infix_iff_prefix_suffix.mp hfound with ⟨x, hpart, before, heq⟩
    rcases List.append_eq_append_iff.mp heq with ⟨y, hfront, rfl⟩ | ⟨y, _, ht⟩
    · by_cases hy : y = []
      · rw [hy] at hpart
        exact hpart.isInfix
      · have hend : y ∈ front.tails := (List.mem_tails y front).mpr ⟨before, hfront.symm⟩
        rcases List.prefix_or_prefix_of_prefix (List.prefix_append y t) (hkey.trans hpart) with
          hclash | hclash
        · exact absurd hclash (h y hend hy).1
        · exact absurd hclash (h y hend hy).2
    · rw [ht]
      exact hpart.isInfix.trans (List.suffix_append y x).isInfix
  · intro hfound
    exact hfound.trans (List.suffix_append front t).isInfix

end Text

namespace Hint

/-!
## What the rules look for
-/

/-- A text of one byte or more, all of one class. -/
def MadeOf (ofClass : UInt8 -> Bool) (t : Text) : Prop :=
  t ≠ [] ∧ forall b, b ∈ t -> ofClass b = true

instance (ofClass : UInt8 -> Bool) (t : Text) : Decidable (MadeOf ofClass t) :=
  decidable_of_iff (t ≠ [] ∧ t.all ofClass = true) (and_congr_right fun _ => List.all_eq_true)

def FlagText (part : Text) : Prop :=
  exists word, MadeOf isWordByte word ∧ part = " -" ++ word

/-- The fault of several trace files, up to an argument that looks like a flag. -/
def MisplacedFlagText (part : Text) : Prop :=
  exists count args flag, MadeOf Numeral.isDigit count ∧ Text.newline ∉ args ∧ FlagText flag ∧
    part = "expected exactly one trace file, got " ++ count ++ " arguments [" ++ args ++ flag

def InvalidLabelText (part : Text) : Prop :=
  exists label, MadeOf Numeral.isDigit label ∧ part = "invalid label " ++ label

def MalformedText (part : Text) : Prop :=
  exists word, MadeOf isWordByte word ∧ part = "malformed " ++ word ++ " section"

/-- Whether a text of some form is somewhere in a text. -/
def Holds (form : Text -> Prop) (t : Text) : Prop :=
  exists part, form part ∧ part <:+: t

variable {form : Text -> Prop} {ofClass : UInt8 -> Bool} {p : Text -> Bool} {s t key word : Text}
  {b : UInt8}

theorem anyEnd_iff (hp : forall s, p s = true <-> exists part, form part ∧ part <+: s) :
    anyEnd p t = true <-> Holds form t := by
  induction t with
  | nil =>
      rw [anyEnd, hp]
      simp only [Holds, List.prefix_nil, List.infix_nil]
  | cons b rest ih =>
      rw [anyEnd, Bool.or_eq_true, hp, ih]
      simp only [Holds, List.infix_cons_iff, and_or_left, exists_or]

theorem after?_eq_some_iff {start rest : Text} :
    after? start t = some rest <-> t = start ++ rest := by
  unfold after? Text.startsWith
  split
  · rename_i hstart
    rcases List.isPrefixOf_iff_prefix.mp hstart with ⟨x, rfl⟩
    rw [List.drop_left, Option.some.injEq, List.append_cancel_left_eq]
  · rename_i hstart
    rw [List.isPrefixOf_iff_prefix] at hstart
    refine iff_of_false (by simp) ?_
    intro heq
    exact hstart ⟨rest, heq.symm⟩

theorem after?_append (start rest : Text) : after? start (start ++ rest) = some rest :=
  after?_eq_some_iff.mpr rfl

theorem madeOf_singleton (hb : ofClass b = true) : MadeOf ofClass [b] := by
  refine ⟨List.cons_ne_nil b [], ?_⟩
  intro x hx
  rwa [List.mem_singleton.mp hx]

theorem madeOf_takeWhile (h : t.head?.any ofClass = true) : MadeOf ofClass (t.takeWhile ofClass) := by
  refine ⟨?_, fun b hb => List.mem_takeWhile_imp hb⟩
  cases t with
  | nil => cases h
  | cons b rest =>
      have hb : ofClass b = true := h
      rw [List.takeWhile_cons_of_pos hb]
      exact List.cons_ne_nil _ _

theorem MadeOf.head?_append (hword : MadeOf ofClass word) (t : Text) :
    (word ++ t).head?.any ofClass = true := by
  cases word with
  | nil => exact absurd rfl hword.1
  | cons b word => exact hword.2 b List.mem_cons_self

theorem MadeOf.dropWhile_append (hword : MadeOf ofClass word) (hb : ofClass b = false) (t : Text) :
    (word ++ b :: t).dropWhile ofClass = b :: t := by
  rw [List.dropWhile_append_of_pos hword.2, List.dropWhile_cons_of_neg (by rw [hb]; decide)]

/-- To find a run of bytes of one class it is enough to find the first of them. -/
theorem beginsRun_iff {start : Text} :
    (match after? start s with
      | some (b :: _) => ofClass b
      | _ => false) = true <->
      exists part, (exists word, MadeOf ofClass word ∧ part = start ++ word) ∧ part <+: s := by
  constructor
  · intro h
    split at h
    · rename_i b rest hafter
      refine ⟨start ++ [b], ⟨[b], madeOf_singleton h, rfl⟩, rest, ?_⟩
      rw [after?_eq_some_iff.mp hafter, List.append_assoc]
      rfl
    · cases h
  · intro h
    rcases h with ⟨_, ⟨word, hword, rfl⟩, rest, rfl⟩
    rw [List.append_assoc, after?_append]
    cases word with
    | nil => exact absurd rfl hword.1
    | cons b word => exact hword.2 b List.mem_cons_self

theorem beginsFlag_iff : beginsFlag s = true <-> exists part, FlagText part ∧ part <+: s :=
  beginsRun_iff

theorem beginsInvalidLabel_iff :
    beginsInvalidLabel s = true <-> exists part, InvalidLabelText part ∧ part <+: s :=
  beginsRun_iff

theorem beginsMalformed_iff :
    beginsMalformed s = true <-> exists part, MalformedText part ∧ part <+: s := by
  unfold beginsMalformed
  constructor
  · intro h
    split at h
    · cases h
    · rename_i rest hafter
      rw [Bool.and_eq_true, Text.startsWith, List.isPrefixOf_iff_prefix] at h
      rcases h with ⟨hhead, x, hx⟩
      refine ⟨_, ⟨rest.takeWhile isWordByte, madeOf_takeWhile hhead, rfl⟩, x, ?_⟩
      rw [after?_eq_some_iff.mp hafter, List.append_assoc, List.append_assoc, hx,
        List.takeWhile_append_dropWhile]
  · intro h
    rcases h with ⟨_, ⟨word, hword, rfl⟩, x, rfl⟩
    rw [List.append_assoc, List.append_assoc, after?_append]
    dsimp only
    rw [hword.head?_append, Bool.true_and, Text.startsWith, List.isPrefixOf_iff_prefix]
    have hdrop : (word ++ (Text.ofString " section" ++ x)).dropWhile isWordByte =
        Text.ofString " section" ++ x := hword.dropWhile_append (by decide) _
    rw [hdrop]
    exact List.prefix_append _ x

theorem newline_not_mem_flagText (h : FlagText t) : Text.newline ∉ t := by
  rcases h with ⟨word, hword, rfl⟩
  intro hmem
  rcases List.mem_append.mp hmem with hmem | hmem
  · exact absurd hmem (by decide)
  · exact absurd (hword.2 _ hmem) (by decide)

theorem beginsMisplacedFlag_iff :
    beginsMisplacedFlag s = true <-> exists part, MisplacedFlagText part ∧ part <+: s := by
  unfold beginsMisplacedFlag
  constructor
  · intro h
    split at h
    · cases h
    · rename_i rest hafter
      rw [Bool.and_eq_true] at h
      rcases h with ⟨hhead, hargs⟩
      split at hargs
      · cases hargs
      · rename_i args hargsafter
        rcases (anyEnd_iff fun _ => beginsFlag_iff).mp hargs with ⟨flag, hflag, front, x, hx⟩
        have hfront : Text.newline ∉ front := by
          intro hmem
          have hline : Text.newline ∈ args.takeWhile (· ≠ Text.newline) := by
            rw [← hx]
            exact List.mem_append_left x (List.mem_append_left flag hmem)
          exact absurd (List.mem_takeWhile_imp hline) (by decide)
        refine ⟨_, ⟨rest.takeWhile Numeral.isDigit, front, flag, madeOf_takeWhile hhead, hfront,
          hflag, rfl⟩, x ++ args.dropWhile (· ≠ Text.newline), ?_⟩
        have hrest : rest = rest.takeWhile Numeral.isDigit ++ (" arguments [" ++ args) := by
          rw [← after?_eq_some_iff.mp hargsafter, List.takeWhile_append_dropWhile]
        have hargsline : args = front ++ flag ++ x ++ args.dropWhile (· ≠ Text.newline) := by
          rw [hx, List.takeWhile_append_dropWhile]
        rw [after?_eq_some_iff.mp hafter]
        conv_rhs => rw [hrest, hargsline]
        simp only [List.append_assoc]
  · intro h
    rcases h with ⟨_, ⟨count, args, flag, hcount, hargs, hflag, rfl⟩, x, rfl⟩
    have hdrop : (count ++ (Text.ofString " arguments [" ++ (args ++ (flag ++ x)))).dropWhile
        Numeral.isDigit = Text.ofString " arguments [" ++ (args ++ (flag ++ x)) :=
      hcount.dropWhile_append (by decide) _
    have hline : (args ++ (flag ++ x)).takeWhile (· ≠ Text.newline) =
        args ++ flag ++ x.takeWhile (· ≠ Text.newline) := by
      rw [← List.append_assoc, List.takeWhile_append_of_pos]
      intro b hb
      rw [decide_eq_true_eq]
      intro heq
      rw [heq] at hb
      rcases List.mem_append.mp hb with hb | hb
      · exact hargs hb
      · exact newline_not_mem_flagText hflag hb
    simp only [List.append_assoc]
    rw [after?_append]
    dsimp only
    rw [hcount.head?_append, Bool.true_and, hdrop, after?_append]
    dsimp only
    rw [hline, anyEnd_iff fun _ => beginsFlag_iff]
    exact ⟨flag, hflag, args, _, rfl⟩

open Classical in
theorem find?_eq (t : Text) :
    find? t =
      if Holds MisplacedFlagText t then some misplacedFlag
      else if Text.ofString "not a taint trace file" <:+: t ∨
          Text.ofString "unsupported trace version" <:+: t then some notTrace
      else if Text.ofString "truncated taint trace file" <:+: t then some incomplete
      else if (Holds InvalidLabelText t ∨ Text.ofString "unknown input" <:+: t) ∨
          Holds MalformedText t then some inconsistent
      else if Text.ofString "could not open trace" <:+: t then some unreadable
      else none := by
  unfold find?
  simp only [Bool.or_eq_true, Text.contains_iff, anyEnd_iff fun _ => beginsMisplacedFlag_iff,
    anyEnd_iff fun _ => beginsInvalidLabel_iff, anyEnd_iff fun _ => beginsMalformed_iff]

/-- What it means that no rule applies to a text. -/
structure Silent (t : Text) : Prop where
  flag : ¬ Holds MisplacedFlagText t
  magic : ¬ Text.ofString "not a taint trace file" <:+: t
  version : ¬ Text.ofString "unsupported trace version" <:+: t
  truncated : ¬ Text.ofString "truncated taint trace file" <:+: t
  label : ¬ Holds InvalidLabelText t
  input : ¬ Text.ofString "unknown input" <:+: t
  malformed : ¬ Holds MalformedText t

theorem silent_of_find?_eq_none (h : find? t = none) : Silent t := by
  rw [find?_eq] at h
  split at h
  · cases h
  · rename_i hflag
    split at h
    · cases h
    · rename_i hforeign
      split at h
      · cases h
      · rename_i htruncated
        split at h
        · cases h
        · rename_i hfaulty
          rw [not_or] at hforeign
          rw [not_or, not_or] at hfaulty
          exact ⟨hflag, hforeign.1, hforeign.2, htruncated, hfaulty.1.1, hfaulty.1.2, hfaulty.2⟩

/-!
## Messages about rejected files
-/

def colon : UInt8 := Text.byte ':'

def front : Text := "could not open trace: could not read trace "

def rejection (path reason : Text) : Text :=
  front ++ (path ++ colon :: (" " ++ reason))

theorem message_rejected (path : Text) (e : Image.ImageError) :
    (ToolFault.traceUnusable (.rejected path e)).message = rejection path e.message := by
  have hfront : front = Text.ofString "could not open trace: " ++
      Text.ofString "could not read trace " := by decide
  have hcolon : Text.ofString ": " = colon :: Text.ofString " " := by decide
  rw [rejection, hfront]
  simp only [ToolFault.message, OpenFault.message, hcolon, List.append_assoc, List.cons_append]

variable {path reason : Text}

/-- A form of texts that begin with a key and have no colon, where the key cannot begin in what
stands around a path. -/
structure Separate (form : Text -> Prop) (key : Text) : Prop where
  begins : forall part, form part -> key <+: part
  apart : Text.Apart front key
  apartSpace : Text.Apart " " key
  plain : forall part, form part -> colon ∉ part

theorem Separate.holds_rejection_iff (h : Separate form key) (hpath : ¬ Holds form path) :
    Holds form (rejection path reason) <-> Holds form reason := by
  have hiff : forall part, form part ->
      (part <:+: rejection path reason <-> part <:+: path ∨ part <:+: reason) := by
    intro part hpart
    rw [rejection, h.apart.infix_append_iff (h.begins part hpart),
      Text.infix_append_cons_iff (h.plain part hpart),
      h.apartSpace.infix_append_iff (h.begins part hpart)]
  constructor
  · intro hholds
    rcases hholds with ⟨part, hpart, hmem⟩
    rcases (hiff part hpart).mp hmem with hmem | hmem
    · exact absurd ⟨part, hpart, hmem⟩ hpath
    · exact ⟨part, hpart, hmem⟩
  · intro hholds
    rcases hholds with ⟨part, hpart, hmem⟩
    exact ⟨part, hpart, (hiff part hpart).mpr (Or.inr hmem)⟩

theorem separate_literal (hapart : Text.Apart front key ∧ Text.Apart " " key)
    (hplain : colon ∉ key) : Separate (· = key) key where
  begins := by
    intro part hpart
    rw [hpart]
  apart := hapart.1
  apartSpace := hapart.2
  plain := by
    intro part hpart
    rwa [hpart]

theorem MadeOf.not_mem (hword : MadeOf ofClass word) (hb : ofClass b = false) : b ∉ word := by
  intro hmem
  rw [hword.2 b hmem] at hb
  cases hb

theorem separate_invalidLabel : Separate InvalidLabelText "invalid label " where
  begins := by
    intro part hpart
    rcases hpart with ⟨label, _, rfl⟩
    exact List.prefix_append _ label
  apart := by decide
  apartSpace := by decide
  plain := by
    intro part hpart
    rcases hpart with ⟨label, hlabel, rfl⟩
    rw [List.mem_append, not_or]
    exact ⟨by decide, hlabel.not_mem (by decide)⟩

theorem separate_malformed : Separate MalformedText "malformed " where
  begins := by
    intro part hpart
    rcases hpart with ⟨word, _, rfl⟩
    rw [List.append_assoc]
    exact List.prefix_append _ _
  apart := by decide
  apartSpace := by decide
  plain := by
    intro part hpart
    rcases hpart with ⟨word, hword, rfl⟩
    rw [List.mem_append, List.mem_append, not_or, not_or]
    exact ⟨⟨by decide, hword.not_mem (by decide)⟩, by decide⟩

theorem dash_mem_flagText (h : FlagText t) : Flag.dash ∈ t := by
  rcases h with ⟨word, _, rfl⟩
  exact List.mem_append_left word (by decide)

theorem colon_not_mem_flagText (h : FlagText t) : colon ∉ t := by
  rcases h with ⟨word, hword, rfl⟩
  rw [List.mem_append, not_or]
  exact ⟨by decide, hword.not_mem (by decide)⟩

theorem not_holds_misplacedFlag (h : Flag.dash ∉ t) : ¬ Holds MisplacedFlagText t := by
  intro hholds
  rcases hholds with ⟨_, ⟨count, args, flag, _, _, hflag, rfl⟩, hmem⟩
  exact h (hmem.subset (List.mem_append_right _ (dash_mem_flagText hflag)))

/-- The fault of several trace files may begin in a path and go on in the reason, but then the
reason has a flag. -/
theorem not_holds_misplacedFlag_rejection (hpath : ¬ Holds MisplacedFlagText path)
    (hreason : Flag.dash ∉ reason) : ¬ Holds MisplacedFlagText (rejection path reason) := by
  intro hholds
  rcases hholds with ⟨part, hpart, hmem⟩
  have hform := hpart
  rcases hform with ⟨count, args, flag, hcount, hargs, hflag, heq⟩
  have hkey : Text.ofString "expected exactly one trace file, got " <+: part := by
    rw [heq, List.append_assoc, List.append_assoc, List.append_assoc]
    exact List.prefix_append _ _
  have hapart : Text.Apart front (Text.ofString "expected exactly one trace file, got ") := by
    decide
  rw [rejection, hapart.infix_append_iff hkey] at hmem
  rcases hmem with ⟨before, after, hwhole⟩
  rcases List.append_eq_append_iff.mp hwhole with ⟨x, hin, _⟩ | ⟨x, hleft, hright⟩
  · exact hpath ⟨part, hpart, before, x, hin.symm⟩
  · rcases List.cons_eq_append_iff.mp hright with ⟨rfl, _⟩ | ⟨y, rfl, hy⟩
    · rw [List.append_nil] at hleft
      exact hpath ⟨part, hpart, before, [], by rw [List.append_nil, hleft]⟩
    · -- The last part of the text is a flag, and that has no colon.
      rw [heq, ← List.append_assoc] at hleft
      have hend : flag <:+ y := Text.suffix_of_append_eq hleft (colon_not_mem_flagText hflag)
      have hdash : Flag.dash ∈ Text.ofString " " ++ reason := by
        rw [hy]
        exact List.mem_append_left after (hend.subset (dash_mem_flagText hflag))
      rcases List.mem_append.mp hdash with hdash | hdash
      · exact absurd hdash (by decide)
      · exact hreason hdash

theorem holds_eq_iff : Holds (· = key) t <-> key <:+: t := by
  unfold Holds
  rw [exists_eq_left]

theorem infix_rejection_iff (hapart : Text.Apart front key ∧ Text.Apart " " key)
    (hplain : colon ∉ key) (hpath : ¬ key <:+: path) :
    key <:+: rejection path reason <-> key <:+: reason := by
  rw [← holds_eq_iff, (separate_literal hapart hplain).holds_rejection_iff, holds_eq_iff]
  rwa [holds_eq_iff]

/-- The reason decides on the hint, if the path gives no reason for one.  Where the reason
gives none either, there still is the hint for a trace that could not be opened. -/
theorem find?_rejection (hpath : find? path = none) (hreason : Flag.dash ∉ reason) :
    find? (rejection path reason) = some ((find? reason).getD unreadable) := by
  have hsilent := silent_of_find?_eq_none hpath
  have hopen : Text.ofString "could not open trace" <:+: rejection path reason := by
    have hfront : Text.ofString "could not open trace" <+: front := by decide
    exact (hfront.trans (List.prefix_append front _)).isInfix
  classical
  rw [find?_eq, find?_eq, if_neg (not_holds_misplacedFlag_rejection hsilent.flag hreason),
    if_neg (not_holds_misplacedFlag hreason)]
  simp only [infix_rejection_iff (by decide) (by decide) hsilent.magic,
    infix_rejection_iff (by decide) (by decide) hsilent.version,
    infix_rejection_iff (by decide) (by decide) hsilent.truncated,
    infix_rejection_iff (by decide) (by decide) hsilent.input,
    separate_invalidLabel.holds_rejection_iff hsilent.label,
    separate_malformed.holds_rejection_iff hsilent.malformed]
  rw [if_pos hopen]
  split
  · rfl
  · split
    · rfl
    · split
      · rfl
      · split
        · rfl
        · rfl

/-!
## Reasons for a rejection
-/

open Image

def sectionNames : List Text :=
  ["fd headers", "strings", "labels", "sinks", "output taints", "unknown"]

theorem tagText_mem (tag : Nat) : tagText tag ∈ sectionNames := by
  unfold tagText
  split
  · rename_i kind _
    cases kind <;> decide
  · decide

theorem kindText_mem (kind : SectionKind) : kind.text ∈ sectionNames := by
  cases kind <;> decide

def keys : List Text :=
  ["not a taint trace file", "unsupported trace version", "truncated taint trace file",
    "invalid label ", "unknown input", "malformed ", "could not open trace"]

theorem isDigit_of_mem_keys (key : Text) (hkey : key ∈ keys) (b : UInt8) (hb : b ∈ key) :
    Numeral.isDigit b = false := by
  have hall : keys.all (fun key => key.all fun b => !Numeral.isDigit b) = true := by decide
  have hbyte := List.all_eq_true.mp (List.all_eq_true.mp hall key hkey) b hb
  rwa [Bool.not_eq_true'] at hbyte

theorem colon_not_mem_keys : forall key, key ∈ keys -> colon ∉ key := by
  decide

theorem apart_keys : forall key, key ∈ keys -> Text.Apart " " key := by
  decide

theorem not_infix_fault (fault : SectionFault) :
    forall key, key ∈ keys -> ¬ key <:+: fault.message := by
  intro key hkey
  have hdigits := isDigit_of_mem_keys key hkey
  cases fault with
  | entrySize found expected =>
      have hparts : forall key, key ∈ keys -> ¬ (key <:+: Text.ofString "entry size is " ∨
          key <:+: Text.ofString ", expected ") := by decide
      rw [SectionFault.message, List.append_assoc, List.append_assoc,
        Text.infix_append_ofNat_iff hdigits, Text.infix_append_number_iff hdigits]
      exact hparts key hkey
  | size found expected =>
      have hparts : forall key, key ∈ keys -> ¬ (key <:+: Text.ofString "size " ∨
          key <:+: Text.ofString " is not a multiple of ") := by decide
      rw [SectionFault.message, List.append_assoc, List.append_assoc,
        Text.infix_append_ofNat_iff hdigits, Text.infix_append_number_iff hdigits]
      exact hparts key hkey
  | missing =>
      have hparts : forall key, key ∈ keys -> ¬ key <:+: Text.ofString "missing" := by decide
      exact hparts key hkey
  | nameOutside index =>
      have hparts : forall key, key ∈ keys -> ¬ (key <:+: Text.ofString "name of header " ∨
          key <:+: Text.ofString " is outside of the string table") := by decide
      rw [SectionFault.message, List.append_assoc, Text.infix_append_ofNat_iff hdigits]
      exact hparts key hkey

theorem dash_not_mem_fault (fault : SectionFault) : Flag.dash ∉ fault.message := by
  have hnumber : forall n, Flag.dash ∉ Text.ofNat n := Numeral.not_mem_ofNat (by decide)
  cases fault with
  | entrySize found expected =>
      simp only [SectionFault.message, List.mem_append, hnumber, or_false]
      decide
  | size found expected =>
      simp only [SectionFault.message, List.mem_append, hnumber, or_false]
      decide
  | missing => decide
  | nameOutside index =>
      simp only [SectionFault.message, List.mem_append, hnumber, or_false]
      decide

theorem dash_not_mem_message (e : ImageError) : Flag.dash ∉ e.message := by
  have hnumber : forall n, Flag.dash ∉ Text.ofNat n := Numeral.not_mem_ofNat (by decide)
  have hname : forall name, name ∈ sectionNames -> Flag.dash ∉ name := by decide
  cases e with
  | badMagic => decide
  | truncated => decide
  | version found =>
      simp only [ImageError.message, List.mem_append, hnumber, or_false]
      decide
  | outside entry =>
      simp only [ImageError.message, List.mem_append, hnumber, or_false,
        hname _ (tagText_mem entry.tag), false_or]
      decide
  | malformed kind fault =>
      simp only [ImageError.message, List.mem_append, hname _ (kindText_mem kind), or_false,
        dash_not_mem_fault fault]
      decide

theorem find?_version (found : Nat) : find? (ImageError.version found).message = some notTrace := by
  have hversion : Text.ofString "unsupported trace version" <:+:
      (ImageError.version found).message := by
    have hfront : Text.ofString "unsupported trace version" <+:
        Text.ofString "unsupported trace version " := by decide
    rw [ImageError.message, List.append_assoc, List.append_assoc, List.append_assoc]
    exact (hfront.trans (List.prefix_append _ _)).isInfix
  rw [find?_eq, if_neg (not_holds_misplacedFlag (dash_not_mem_message _)),
    if_pos (Or.inr hversion)]

theorem find?_outside (entry : TableEntry) :
    find? (ImageError.outside entry).message = some incomplete := by
  have hforeign : forall key, key ∈ keys.take 2 -> ¬ key <:+: (ImageError.outside entry).message := by
    intro key hkey
    have hdigits := isDigit_of_mem_keys key (List.mem_of_mem_take hkey)
    have hnames : forall key, key ∈ keys.take 2 -> forall name, name ∈ sectionNames ->
        ¬ key <:+: name ++ Text.ofString " section [" := by decide
    have hparts : forall key, key ∈ keys.take 2 -> ¬ (key <:+: Text.ofString ", +" ∨
        key <:+: Text.ofString ") outside of file: truncated taint trace file") := by decide
    rw [ImageError.message, List.append_assoc, List.append_assoc, List.append_assoc,
      Text.infix_append_ofNat_iff hdigits, Text.infix_append_ofNat_iff hdigits, not_or]
    exact ⟨hnames key hkey _ (tagText_mem entry.tag), hparts key hkey⟩
  have htruncated : Text.ofString "truncated taint trace file" <:+:
      (ImageError.outside entry).message := (message_of_isTruncation rfl).isInfix
  rw [find?_eq, if_neg (not_holds_misplacedFlag (dash_not_mem_message _)),
    if_neg (not_or.mpr ⟨hforeign _ (by decide), hforeign _ (by decide)⟩), if_pos htruncated]

def OneWord (kind : SectionKind) : Prop :=
  MadeOf isWordByte kind.text

instance (kind : SectionKind) : Decidable (OneWord kind) :=
  inferInstanceAs (Decidable (MadeOf isWordByte kind.text))

def malformedSection (kind : SectionKind) : Text :=
  "malformed " ++ kind.text ++ " section"

theorem message_malformed (kind : SectionKind) (fault : SectionFault) :
    (ImageError.malformed kind fault).message =
      malformedSection kind ++ colon :: (" " ++ fault.message) := by
  have hcolon : Text.ofString " section: " = Text.ofString " section" ++ colon ::
      Text.ofString " " := by decide
  rw [ImageError.message, malformedSection, hcolon]
  simp only [List.append_assoc, List.cons_append]

theorem infix_malformed_iff {key part : Text} (hkey : key ∈ keys) (hbegins : key <+: part)
    (hplain : colon ∉ part) (kind : SectionKind) (fault : SectionFault) :
    part <:+: (ImageError.malformed kind fault).message <-> part <:+: malformedSection kind := by
  rw [message_malformed, Text.infix_append_cons_iff hplain, or_iff_left]
  intro hmem
  exact not_infix_fault fault key hkey
    (hbegins.isInfix.trans (((apart_keys key hkey).infix_append_iff hbegins).mp hmem))

theorem not_infix_malformed (kind : SectionKind) (fault : SectionFault) :
    forall key, key ∈ keys.erase (Text.ofString "malformed ") ->
      ¬ key <:+: (ImageError.malformed kind fault).message := by
  intro key hkey
  have hmem := List.mem_of_mem_erase hkey
  have hliteral : forall key, key ∈ keys.erase (Text.ofString "malformed ") ->
      ¬ key <:+: malformedSection kind := by
    cases kind <;> decide
  rw [infix_malformed_iff hmem (List.prefix_refl key) (colon_not_mem_keys key hmem)]
  exact hliteral key hkey

theorem oneWord_iff (kind : SectionKind) :
    OneWord kind <-> kind ≠ .headers ∧ kind ≠ .taints := by
  cases kind <;> decide

/-- The reason of a malformed section is found if the name of the section is one word. -/
theorem holds_malformed_iff (kind : SectionKind) (fault : SectionFault) :
    Holds MalformedText (ImageError.malformed kind fault).message <-> OneWord kind := by
  constructor
  · intro hholds
    rcases hholds with ⟨part, hpart, hmem⟩
    rw [infix_malformed_iff (by decide) (separate_malformed.begins part hpart)
      (separate_malformed.plain part hpart)] at hmem
    have hholds : Holds MalformedText (malformedSection kind) := ⟨part, hpart, hmem⟩
    rw [← anyEnd_iff fun _ => beginsMalformed_iff] at hholds
    rw [oneWord_iff]
    cases kind with
    | headers => exact absurd hholds (by decide)
    | taints => exact absurd hholds (by decide)
    | _ => decide
  · intro hword
    refine ⟨malformedSection kind, ⟨kind.text, hword, rfl⟩, ?_⟩
    rw [message_malformed]
    exact (List.prefix_append _ _).isInfix

theorem find?_malformed (kind : SectionKind) (fault : SectionFault) :
    find? (ImageError.malformed kind fault).message =
      if OneWord kind then some inconsistent else none := by
  have hother := not_infix_malformed kind fault
  have hinput := hother (Text.ofString "unknown input") (by decide)
  have hlabel : ¬ Holds InvalidLabelText (ImageError.malformed kind fault).message := by
    intro hholds
    rcases hholds with ⟨part, hpart, hmem⟩
    exact hother (Text.ofString "invalid label ") (by decide)
      ((separate_invalidLabel.begins part hpart).isInfix.trans hmem)
  rw [find?_eq, if_neg (not_holds_misplacedFlag (dash_not_mem_message _)),
    if_neg (not_or.mpr ⟨hother _ (by decide), hother _ (by decide)⟩),
    if_neg (hother _ (by decide)), if_neg (hother _ (by decide))]
  simp only [holds_malformed_iff, hlabel, hinput, false_or]

/-- The hints that a message about a rejected file can have. -/
inductive Advice where
  | notTrace
  | incomplete
  | inconsistent
  | unreadable
  deriving DecidableEq

def Advice.text : Advice -> Text
  | notTrace => Hint.notTrace
  | incomplete => Hint.incomplete
  | inconsistent => Hint.inconsistent
  | unreadable => Hint.unreadable

theorem Advice.text_inj {a a' : Advice} : a.text = a'.text <-> a = a' := by
  cases a <;> cases a' <;> decide

def adviceFor : ImageError -> Advice
  | .badMagic => .notTrace
  | .version _ => .notTrace
  | .truncated => .incomplete
  | .outside _ => .incomplete
  | .malformed kind _ => if OneWord kind then .inconsistent else .unreadable

theorem find?_message (e : ImageError) :
    (find? e.message).getD unreadable = (adviceFor e).text := by
  cases e with
  | badMagic => decide
  | truncated => decide
  | version found =>
      rw [find?_version]
      rfl
  | outside entry =>
      rw [find?_outside]
      rfl
  | malformed kind fault =>
      rw [find?_malformed, adviceFor]
      split
      · rfl
      · rfl

theorem find?_message_rejected (hpath : find? path = none) (e : ImageError) (a : Advice) :
    find? (ToolFault.traceUnusable (.rejected path e)).message = some a.text <->
      adviceFor e = a := by
  rw [message_rejected, find?_rejection hpath (dash_not_mem_message e), find?_message,
    Option.some.injEq, Advice.text_inj]

/-!
## Main result
-/

/-- Whatever file is rejected, under a path that gives no reason for a hint: the hint tells what
kind of reason it was, but for malformed sections of two kinds, whose reasons are not found. -/
theorem hint_of_rejected_file (path file : Text) (e : ImageError)
    (hread : Image.read file = .error e) (hpath : find? path = none) :
    exists fault, Workspace.openImage path (.ok (.ok file)) = .error fault ∧
      (ToolFault.traceUnusable fault).message =
        "could not open trace: could not read trace " ++ path ++ ": " ++ e.message ∧
      (find? (ToolFault.traceUnusable fault).message = some notTrace <->
        e = .badMagic ∨ exists found, e = .version found) ∧
      (find? (ToolFault.traceUnusable fault).message = some incomplete <->
        e.isTruncation = true) ∧
      (find? (ToolFault.traceUnusable fault).message = some inconsistent <->
        exists kind cause, e = .malformed kind cause ∧ kind ≠ .headers ∧ kind ≠ .taints) ∧
      (find? (ToolFault.traceUnusable fault).message = some unreadable <->
        exists kind cause, e = .malformed kind cause ∧ (kind = .headers ∨ kind = .taints)) := by
  refine ⟨.rejected path e, ?_, ?_, ?_⟩
  · rw [Workspace.openImage, hread]
  · have hfront : Text.ofString "could not open trace: could not read trace " =
        Text.ofString "could not open trace: " ++ Text.ofString "could not read trace " := by
      decide
    rw [hfront]
    simp only [ToolFault.message, OpenFault.message, List.append_assoc]
  · refine ⟨(find?_message_rejected hpath e .notTrace).trans ?_,
      (find?_message_rejected hpath e .incomplete).trans ?_,
      (find?_message_rejected hpath e .inconsistent).trans ?_,
      (find?_message_rejected hpath e .unreadable).trans ?_⟩
    · cases e <;> simp [adviceFor, ite_eq_iff]
    · cases e <;> simp [adviceFor, ite_eq_iff, ImageError.isTruncation]
    · cases e <;> simp [adviceFor, oneWord_iff]
    · cases e <;> simp [adviceFor, oneWord_iff, imp_iff_not_or]

def bare : Text :=
  magic ++ littleEndian 2 version ++ littleEndian 2 0 ++ littleEndian 8 0

theorem hint_of_rejected_file_bare :
    Image.read bare = .error (.malformed .headers .missing) ∧ find? "run.tdag" = none ∧
      exists fault, Workspace.openImage "run.tdag" (.ok (.ok bare)) = .error fault ∧
        find? (ToolFault.traceUnusable fault).message = some unreadable := by
  rcases hint_of_rejected_file "run.tdag" bare (.malformed .headers .missing) rfl (by decide) with
    ⟨fault, hopen, _, _, _, _, hhint⟩
  exact ⟨rfl, by decide, fault, hopen, hhint.mpr ⟨.headers, .missing, rfl, Or.inl rfl⟩⟩

/-- The hint for a file with a malformed section is not always that it is inconsistent. -/
theorem malformed_section_hint_unreadable :
    Image.read bare = .error (.malformed .headers .missing) ∧ find? "run.tdag" = none ∧
      find? ("could not open trace: could not read trace " ++ "run.tdag" ++ ": " ++
        (ImageError.malformed .headers .missing).message) = some unreadable ∧
      unreadable ≠ inconsistent := by
  exact ⟨rfl, by decide, by decide, by decide⟩

end Hint
end TaintTrace

import Mathlib
import TaintTrace.Pattern.Reading

/-!
# The part of a pattern that is to blame

A text that is no pattern is refused with the part of it that has the problem.  Whatever
the problem is, that part stands in the text as it is shown.
-/

namespace TaintTrace
namespace Pattern

variable {α β : Type} {whole cs rest : List Char} {c : Char} {P : α -> Prop} {Q : β -> Prop}

def Fault.Within (f : Fault) (whole : List Char) : Prop :=
  exists part, part <:+: whole ∧ f.part = Text.ofChars part

theorem Fault.within_between (problem : Problem) (stop : List Char) (h : cs <:+ whole) :
    (Fault.between problem cs stop).Within whole :=
  ⟨_, (List.take_prefix _ cs).isInfix.trans h.isInfix, rfl⟩

theorem Fault.within_whole (problem : Problem) (h : cs <:+ whole) :
    (Fault.whole problem cs).Within whole :=
  ⟨cs, h.isInfix, rfl⟩

/-- An outcome that has a property, or blames a part of some characters. -/
def Blames (whole : List Char) (P : α -> Prop) : Except Fault α -> Prop
  | .ok x => P x
  | .error f => f.Within whole

theorem Blames.bind {r : Except Fault α} {k : α -> Except Fault β} (h : Blames whole P r)
    (hk : forall x, P x -> Blames whole Q (k x)) : Blames whole Q (r >>= k) := by
  cases r with
  | ok x => exact hk x h
  | error f => exact h

theorem suffix_of_cons (h : c :: rest <:+ whole) : rest <:+ whole :=
  (List.suffix_cons c rest).trans h

theorem drop_suffix_of (n : Nat) (h : cs <:+ whole) : cs.drop n <:+ whole :=
  (List.drop_suffix n cs).trans h

/-!
## Escapes and sets

What is left of the text after an escape or a set is an end of the text.
-/

theorem readBraced_suffix {value digits n : Nat}
    (h : readBraced cs value digits = .ok (n, rest)) : rest <:+ cs := by
  induction cs generalizing value digits with
  | nil => cases h
  | cons c cs ih =>
      rw [readBraced] at h
      split at h
      · split at h
        · cases h
        · cases h
          exact List.suffix_cons c _
      · split at h
        · cases h
        · split at h
          · cases h
          · exact (ih h).trans (List.suffix_cons c cs)

theorem readHex_suffix {n : Nat} (h : readHex cs = .ok (n, rest)) : rest <:+ cs := by
  unfold readHex at h
  split at h
  · cases h
  · exact (readBraced_suffix h).trans (List.suffix_cons _ _)
  · cases h
  · split at h
    · cases h
      exact (List.suffix_cons _ _).trans (List.suffix_cons _ _)
    · cases h

theorem readEscape_blames (h : cs <:+ whole) :
    Blames whole (fun r => r.2 <:+ whole) (readEscape cs) := by
  have hrest := drop_suffix_of 1 h
  unfold readEscape
  split
  · exact ⟨[], List.nil_infix, rfl⟩
  · rename_i c rest hdrop
    rw [hdrop] at hrest
    have hrest := suffix_of_cons hrest
    dsimp only
    split
    · exact drop_suffix_of _ hrest
    · split
      · split
        · rename_i hhex
          exact (readHex_suffix hhex).trans hrest
        · exact Fault.within_between _ _ h
      · repeat' split
        all_goals try exact hrest
        exact Fault.within_between _ _ h

theorem cutAt_suffix {a b : Char} {inner : List Char} (h : cutAt a b cs = some (inner, rest)) :
    rest <:+ cs := by
  induction cs generalizing inner with
  | nil => cases h
  | cons c cs ih =>
      rw [cutAt.eq_def] at h
      dsimp only at h
      split at h
      · split at h
        · cases h
          exact (List.suffix_cons _ _).trans (List.suffix_cons _ _)
        · rcases Option.map_eq_some_iff.mp h with ⟨found, hfound, heq⟩
          cases heq
          exact (ih hfound).trans (List.suffix_cons c _)
      · cases h

/-- Whether what is left after something that may stand here is an end of the text. -/
def RestWithin (whole : List Char) (found : Option (CharSet × List Char)) : Prop :=
  forall set rest, found = some (set, rest) -> rest <:+ whole

theorem restWithin_none (whole : List Char) : RestWithin whole none := by
  intro set rest h
  cases h

theorem restWithin_some (set : CharSet) (h : rest <:+ whole) :
    RestWithin whole (some (set, rest)) := by
  intro set' rest' heq
  cases heq
  exact h

theorem readNamedSet?_blames (flags : Flags) (h : cs <:+ whole) :
    Blames whole (RestWithin whole) (readNamedSet? flags cs) := by
  unfold readNamedSet?
  split
  · split
    · exact restWithin_none whole
    · rename_i inner _ name rest hcut
      have hrest : rest <:+ whole :=
        (cutAt_suffix hcut).trans (suffix_of_cons (suffix_of_cons h))
      dsimp only
      split
      · exact restWithin_some _ hrest
      · exact Fault.within_between _ _ h
  · exact restWithin_none whole

theorem readProperty?_blames (flags : Flags) (h : cs <:+ whole) :
    Blames whole (RestWithin whole) (readProperty? flags cs) := by
  unfold readProperty?
  split
  · rename_i c after
    have hafter : after <:+ whole := suffix_of_cons (suffix_of_cons h)
    split
    · exact restWithin_none whole
    · dsimp only
      split
      · rename_i e hfound
        split at hfound
        · cases hfound
        · split at hfound
          · cases hfound
          · cases hfound
            exact Fault.within_whole _ h
        · cases hfound
      · rename_i name rest hfound
        have hrest : rest <:+ whole := by
          split at hfound
          · cases hfound
            exact List.nil_suffix
          · split at hfound
            · cases hfound
              apply drop_suffix_of
              exact (List.dropWhile_suffix _).trans (suffix_of_cons hafter)
            · cases hfound
          · cases hfound
            exact suffix_of_cons hafter
        split
        · exact restWithin_some _ hrest
        · exact Fault.within_between _ _ h
  · exact restWithin_none whole

theorem readEscapedSet?_within (flags : Flags) (h : cs <:+ whole) :
    RestWithin whole (readEscapedSet? flags cs) := by
  unfold readEscapedSet?
  split
  · intro set rest hfound
    rcases Option.map_eq_some_iff.mp hfound with ⟨found, _, heq⟩
    cases heq
    exact suffix_of_cons (suffix_of_cons h)
  · exact restWithin_none whole

theorem readMember_blames {set : List Char} (hset : set <:+ whole) (h : cs <:+ whole) :
    Blames whole (fun r => r.2 <:+ whole) (readMember set cs) := by
  unfold readMember
  split
  · exact Fault.within_whole _ hset
  · exact readEscape_blames h
  · exact suffix_of_cons h

theorem readRange_blames (flags : Flags) {set : List Char} (hset : set <:+ whole)
    (h : cs <:+ whole) : Blames whole (fun r => r.2 <:+ whole) (readRange flags set cs) := by
  unfold readRange
  apply (readMember_blames hset h).bind
  intro r hr
  dsimp only
  split
  · rename_i next more hnext
    rw [hnext] at hr
    split
    · rw [hnext]
      exact hr
    · apply (readMember_blames hset (suffix_of_cons hr)).bind
      intro r' hr'
      split
      · exact Fault.within_between _ _ h
      · exact hr'
  · exact hr

theorem readMembersHere_blames (flags : Flags) {set : List Char} (hset : set <:+ whole)
    (h : cs <:+ whole) :
    Blames whole (fun r => r.2 <:+ whole) (readMembers.readMembersHere flags set cs) := by
  unfold readMembers.readMembersHere
  apply (readNamedSet?_blames flags h).bind
  intro found hfound
  cases found with
  | some r => exact hfound r.1 r.2 rfl
  | none =>
      apply (readProperty?_blames flags h).bind
      intro found hfound
      cases found with
      | some r => exact hfound r.1 r.2 rfl
      | none =>
          dsimp only
          split
          · rename_i r hescaped
            exact readEscapedSet?_within flags h r.1 r.2 hescaped
          · exact readRange_blames flags hset h

theorem readMembers_blames (flags : Flags) {set : List Char} (hset : set <:+ whole)
    (fuel : Nat) (first : Bool) (read : List (Nat × Nat)) (h : cs <:+ whole) :
    Blames whole (fun r => r.2 <:+ whole) (readMembers flags set fuel first cs read) := by
  induction fuel generalizing first cs read with
  | zero => exact Fault.within_whole _ hset
  | succ fuel ih =>
      cases cs with
      | nil => exact Fault.within_whole _ hset
      | cons c cs =>
          rw [readMembers]
          split
          · exact suffix_of_cons h
          · apply (readMembersHere_blames flags hset h).bind
            intro r hr
            exact ih false _ hr

theorem readSet_blames (flags : Flags) (h : cs <:+ whole) :
    Blames whole (fun r => r.2 <:+ whole) (readSet flags cs) := by
  have hdrop := drop_suffix_of 1 h
  unfold readSet
  split
  rename_i negated inner hinner
  have hsuffix : inner <:+ whole := by
    split at hinner
    · rename_i heq
      cases hinner
      rw [heq] at hdrop
      exact suffix_of_cons hdrop
    · cases hinner
      exact hdrop
  apply (readMembers_blames flags h _ true [] hsuffix).bind
  intro r hr
  exact hr

/-!
## Steps of assembling

Every step keeps the text of the pattern that is being put together, and fails only with a
fault that blames a part of it.
-/

/-- Steps that keep the text and give results with a property, or blame a part of the
text. -/
def Keeps (whole : List Char) (P : α -> Prop) (m : Assembling α) : Prop :=
  forall a : Assembly, a.whole = whole ->
    Blames whole (fun r => P r.1 ∧ r.2.whole = whole) (m a)

/-- Steps that keep the text, or blame a part of it, whatever they give. -/
abbrev Careful (whole : List Char) (m : Assembling α) : Prop :=
  Keeps whole (fun _ => True) m

namespace Keeps

variable {m : Assembling α}

theorem pure {x : α} (h : P x) : Keeps whole P (Pure.pure x) := by
  intro a ha
  exact ⟨h, ha⟩

theorem bind {k : α -> Assembling β} (hm : Keeps whole P m)
    (hk : forall x, P x -> Keeps whole Q (k x)) : Keeps whole Q (m >>= k) := by
  intro a ha
  apply (hm a ha).bind
  intro r hr
  exact hk r.1 hr.1 r.2 hr.2

theorem get : Keeps whole (fun a => a.whole = whole) (MonadState.get : Assembling Assembly) := by
  intro a ha
  exact ⟨ha, ha⟩

theorem set {a : Assembly} (h : a.whole = whole) :
    Careful whole (MonadStateOf.set a : Assembling PUnit) := by
  intro _ _
  exact ⟨trivial, h⟩

theorem update {f : Assembly -> Assembly} (h : forall a, (f a).whole = a.whole) :
    Careful whole (modify f : Assembling PUnit) := by
  intro a ha
  exact ⟨trivial, (h a).trans ha⟩

theorem throw {f : Fault} (h : f.Within whole) :
    Keeps whole P (MonadExcept.throw f : Assembling α) := by
  intro a _
  exact h

theorem lift {r : Except Fault α} (h : Blames whole P r) :
    Keeps whole P (liftM r : Assembling α) := by
  intro a ha
  cases r with
  | ok x => exact ⟨h, ha⟩
  | error f => exact h

theorem fail (problem : Problem) : Keeps whole P (Assembling.fail problem : Assembling α) := by
  intro a ha
  exact Fault.within_whole problem (ha ▸ List.suffix_rfl)

theorem ite {p : Prop} [Decidable p] {k : Assembling α} (hm : Keeps whole P m)
    (hk : Keeps whole P k) : Keeps whole P (if p then m else k) := by
  split
  · exact hm
  · exact hk

theorem onlyIf {p : Prop} [Decidable p] {m : Assembling PUnit} {k : Assembling β}
    (hm : Careful whole m) (hk : Keeps whole Q k) :
    Keeps whole Q (if p then m >>= fun _ => k else k) := by
  split
  · apply hm.bind
    intro _ _
    exact hk
  · exact hk

theorem mapM {xs : List α} {f : α -> Assembling β}
    (h : forall x, x ∈ xs -> Careful whole (f x)) :
    Careful whole (xs.mapM f) := by
  induction xs with
  | nil => exact pure trivial
  | cons x xs ih =>
      rw [List.forall_mem_cons] at h
      rw [List.mapM_cons]
      apply h.1.bind
      intro y _
      apply (ih h.2).bind
      intro ys _
      exact pure trivial

theorem forM {xs : List α} {f : α -> Assembling PUnit}
    (h : forall x, x ∈ xs -> Careful whole (f x)) :
    Careful whole (xs.forM f) := by
  induction xs with
  | nil => exact pure trivial
  | cons x xs ih =>
      rw [List.forall_mem_cons] at h
      apply h.1.bind
      intro _ _
      exact ih h.2

end Keeps

namespace Assembling

theorem useNode_keeps : Careful whole useNode := by
  apply Keeps.update
  intro a
  split
  · rfl
  · rfl

theorem giveUp_keeps : Careful whole giveUp :=
  Keeps.update fun _ => rfl

theorem setParts_keeps (parts : List Pattern) : Careful whole (setParts parts) :=
  Keeps.update fun _ => rfl

theorem checkSize_keeps (p : Pattern) : Careful whole (checkSize p) := by
  unfold checkSize
  apply Keeps.get.bind
  intro a ha
  split
  · dsimp only
    split
    · exact Keeps.set ha
    · refine Keeps.bind (Keeps.set ha) ?_
      intro _ _
      apply (Keeps.fail .size).onlyIf
      split
      · exact Keeps.fail _
      · exact Keeps.pure trivial
  · split
    · exact Keeps.fail _
    · exact Keeps.pure trivial

theorem check_keeps (p : Pattern) : Careful whole (check p) := by
  unfold check
  apply (checkSize_keeps p).bind
  intro _ _
  apply Keeps.get.bind
  intro a _
  split
  · exact Keeps.fail _
  · exact Keeps.pure trivial

theorem dropChars_keeps (n : Nat) (p : Pattern) : Careful whole (dropChars n p) := by
  unfold dropChars
  split
  · exact Keeps.pure trivial
  · split
    · apply giveUp_keeps.bind
      intro _ _
      split
      · apply giveUp_keeps.bind
        intro _ _
        exact Keeps.pure trivial
      · exact Keeps.pure trivial
    · exact Keeps.pure trivial
  · exact Keeps.pure trivial

theorem dropPart_keeps (gone : Bool) (p : Pattern) : Careful whole (dropPart gone p) := by
  unfold dropPart
  split
  · apply giveUp_keeps.onlyIf
    split
    · exact Keeps.pure trivial
    · apply giveUp_keeps.bind
      intro _ _
      exact Keeps.pure trivial
    · exact Keeps.pure trivial
  · apply giveUp_keeps.onlyIf
    apply useNode_keeps.bind
    intro _ _
    exact Keeps.pure trivial

theorem mergeSingles_keeps (run : List Pattern) : Careful whole (mergeSingles run) := by
  unfold mergeSingles
  split
  · exact Keeps.pure trivial
  · exact Keeps.pure trivial
  · refine Keeps.bind (Keeps.forM fun _ _ => giveUp_keeps) ?_
    intro _ _
    exact Keeps.pure trivial

theorem flattenChoices_keeps (branches : List Pattern) :
    Careful whole (flattenChoices branches) := by
  fun_induction flattenChoices branches with
  | case1 => exact Keeps.pure trivial
  | case2 inner rest ih =>
      apply giveUp_keeps.bind
      intro _ _
      apply ih.bind
      intro _ _
      exact Keeps.pure trivial
  | case3 p rest _ ih =>
      apply ih.bind
      intro _ _
      exact Keeps.pure trivial

theorem flattenSequences_keeps (parts : List Pattern) : Careful whole (flattenSequences parts) := by
  fun_induction flattenSequences parts with
  | case1 => exact Keeps.pure trivial
  | case2 inner rest ih =>
      apply giveUp_keeps.bind
      intro _ _
      apply ih.bind
      intro _ _
      exact Keeps.pure trivial
  | case3 p rest _ ih =>
      apply ih.bind
      intro _ _
      exact Keeps.pure trivial

theorem checked_keeps {m : Assembling Pattern} (hm : Careful whole m) :
    Careful whole (do
      let p ← m
      check p
      return p) := by
  apply hm.bind
  intro p _
  apply (check_keeps p).bind
  intro _ _
  exact Keeps.pure trivial

/-- Branches that begin alike become their common beginning and a choice of their rests. -/
theorem shared_keeps {fuel : Nat} (first : Pattern) {xs : List α} {f : α -> Assembling Pattern}
    (hf : forall x, x ∈ xs -> Careful whole (f x))
    (hchoice : forall rests, Careful whole (choice fuel rests)) :
    Careful whole (do
      let rests ← xs.mapM f
      let rest ← choice fuel rests
      useNode
      return Pattern.seq [first, rest]) := by
  apply (Keeps.mapM hf).bind
  intro rests _
  apply (hchoice rests).bind
  intro _ _
  apply useNode_keeps.bind
  intro _ _
  exact Keeps.pure trivial

theorem choice_keeps (fuel : Nat) (branches : List Pattern) :
    Careful whole (choice fuel branches) := by
  induction fuel generalizing branches with
  | zero =>
      unfold choice
      split
      · exact Keeps.pure trivial
      · exact Keeps.pure trivial
      · rename_i hfuel _
        cases hfuel
  | succ fuel ih =>
      unfold choice
      split
      · exact Keeps.pure trivial
      · exact Keeps.pure trivial
      · rename_i hfuel _
        cases hfuel
        apply useNode_keeps.bind
        intro _ _
        apply (flattenChoices_keeps _).bind
        intro _ _
        refine Keeps.bind (Keeps.mapM ?_) ?_
        · intro run _
          split
          · exact Keeps.pure trivial
          · apply useNode_keeps.bind
            intro _ _
            exact shared_keeps _ (fun p _ => checked_keeps (dropChars_keeps _ p)) ih
        · intro _ _
          refine Keeps.bind (Keeps.mapM ?_) ?_
          · intro run _
            dsimp only
            split
            · exact shared_keeps _ (fun p _ => checked_keeps (dropPart_keeps _ p.1)) ih
            · exact Keeps.pure trivial
            · exact Keeps.pure trivial
          · intro _ _
            refine Keeps.bind (Keeps.mapM fun run _ => mergeSingles_keeps _) ?_
            intro _ _
            split
            · apply giveUp_keeps.bind
              intro _ _
              exact Keeps.pure trivial
            · exact Keeps.pure trivial

theorem sequence_keeps (parts : List Pattern) : Careful whole (sequence parts) := by
  unfold sequence
  split
  · exact Keeps.pure trivial
  · apply useNode_keeps.bind
    intro _ _
    apply (flattenSequences_keeps parts).bind
    intro _ _
    exact Keeps.pure trivial

theorem joinLiterals_keeps : Careful whole joinLiterals := by
  unfold joinLiterals
  apply Keeps.get.bind
  intro a _
  split
  · apply giveUp_keeps.bind
    intro _ _
    exact setParts_keeps _
  · exact Keeps.pure trivial

theorem push_keeps (p : Pattern) : Careful whole (push p) := by
  unfold push
  apply Keeps.get.bind
  intro a _
  dsimp only
  split
  · exact setParts_keeps _
  · apply joinLiterals_keeps.bind
    intro _ _
    apply Keeps.get.bind
    intro _ _
    apply (setParts_keeps _).bind
    intro _ _
    exact check_keeps _

theorem pushNew_keeps (p : Pattern) : Careful whole (pushNew p) := by
  apply useNode_keeps.bind
  intro _ _
  exact push_keeps p

theorem settle_keeps (p : Pattern) : Careful whole (settle p) := by
  apply Keeps.get.bind
  intro a _
  apply (check_keeps _).bind
  intro _ _
  exact Keeps.pure trivial

theorem endParts_keeps : Careful whole endParts := by
  apply joinLiterals_keeps.bind
  intro _ _
  apply Keeps.get.bind
  intro a _
  apply (setParts_keeps _).bind
  intro _ _
  split
  · apply useNode_keeps.bind
    intro _ _
    exact settle_keeps _
  · apply (sequence_keeps _).bind
    intro p _
    exact settle_keeps p

theorem addBranch_keeps (branches : List Pattern) (p : Pattern) :
    Careful whole (addBranch branches p) := by
  unfold addBranch
  split
  · split
    · apply giveUp_keeps.bind
      intro _ _
      exact Keeps.pure trivial
    · exact Keeps.pure trivial
  · exact Keeps.pure trivial

theorem branch_keeps : Careful whole branch := by
  apply endParts_keeps.bind
  intro p _
  apply Keeps.get.bind
  intro a _
  apply (addBranch_keeps _ p).bind
  intro more _
  refine Keeps.bind (Keeps.update ?_) ?_
  · intro a
    rfl
  · intro _ _
    split
    · apply useNode_keeps.bind
      intro _ _
      exact check_keeps _
    · exact Keeps.pure trivial

theorem endBranches_keeps : Careful whole endBranches := by
  apply endParts_keeps.bind
  intro p _
  apply Keeps.get.bind
  intro a _
  apply (addBranch_keeps _ p).bind
  intro branches _
  refine Keeps.bind (Keeps.update ?_) ?_
  · intro a
    rfl
  · intro _ _
    apply Keeps.get.bind
    intro a _
    apply (choice_keeps _ _).bind
    intro p _
    exact settle_keeps p

theorem openGroup_keeps (captures : Bool) (flags : Flags) :
    Careful whole (openGroup captures flags) := by
  apply useNode_keeps.bind
  intro _ _
  apply joinLiterals_keeps.bind
  intro _ _
  refine Keeps.bind (Keeps.update ?_) ?_
  · intro a
    rfl
  · intro _ _
    exact check_keeps _

theorem closeGroup_keeps : Careful whole closeGroup := by
  apply endBranches_keeps.bind
  intro inner _
  apply Keeps.get.bind
  intro a ha
  split
  · exact Keeps.fail _
  · refine Keeps.bind (Keeps.set ha) ?_
    intro _ _
    exact push_keeps _

theorem wrapLast_keeps (wrap : Pattern -> Pattern) {missing : Fault}
    (h : missing.Within whole) : Careful whole (wrapLast wrap missing) := by
  apply Keeps.get.bind
  intro a _
  split
  · exact Keeps.throw h
  · apply useNode_keeps.bind
    intro _ _
    apply (setParts_keeps _).bind
    intro _ _
    apply (check_keeps _).bind
    intro _ _
    exact Keeps.pure trivial

theorem finish_keeps : Careful whole finish := by
  apply endBranches_keeps.bind
  intro p _
  apply Keeps.get.bind
  intro a _
  split
  · exact Keeps.pure trivial
  · exact Keeps.fail _

end Assembling

/-!
## Reading the parts of a pattern
-/

theorem readCount?_suffix {n : Option Nat} (h : readCount? cs = some (n, rest)) :
    rest <:+ cs := by
  unfold readCount? at h
  dsimp only at h
  split at h
  · cases h
  · cases h
    exact List.drop_suffix _ cs

theorem readCounts?_suffix {counts : Option (Nat × Option Nat)}
    (h : readCounts? cs = some (counts, rest)) : rest <:+ cs := by
  unfold readCounts? at h
  split at h
  · split at h
    · rename_i hcount
      cases h
      exact (suffix_of_cons (readCount?_suffix hcount)).trans (List.suffix_cons _ _)
    · rename_i hcount
      cases h
      exact (suffix_of_cons (suffix_of_cons (readCount?_suffix hcount))).trans
        (List.suffix_cons _ _)
    · rename_i hcount
      split at h
      · rename_i hmost
        cases h
        have hmore := suffix_of_cons (readCount?_suffix hcount)
        exact ((suffix_of_cons (readCount?_suffix hmost)).trans hmore).trans
          (List.suffix_cons _ _)
      · cases h
    · cases h
  · cases h

theorem wrapped_keeps (wrap : Bool -> Pattern -> Pattern) {start stop : List Char}
    (marked : Bool) (hstart : start <:+ whole) (hstop : stop <:+ whole) :
    Keeps whole (fun rest => rest <:+ whole) (do
      let sparing := (← get).flags.sparing != marked
      let p ← Assembling.wrapLast (wrap sparing) (.between .missingOperand start stop)
      if !countsFit maxCount p then throw (.between .repeatCount start stop)
      return stop) := by
  apply Keeps.get.bind
  intro a _
  apply (Assembling.wrapLast_keeps _ (Fault.within_between _ _ hstart)).bind
  intro p _
  apply (Keeps.throw (Fault.within_between _ _ hstart)).onlyIf
  exact Keeps.pure hstop

theorem readRepeat_keeps (wrap : Bool -> Pattern -> Pattern) {start stop : List Char}
    {last : Option (List Char)} (hstart : start <:+ whole) (hstop : stop <:+ whole)
    (hlast : forall before, last = some before -> before <:+ whole) :
    Keeps whole (fun rest => rest <:+ whole) (readRepeat wrap start stop last) := by
  unfold readRepeat
  split
  rename_i marked stop' hmarked
  have hstop' : stop' <:+ whole := by
    split at hmarked
    · cases hmarked
      exact suffix_of_cons hstop
    · cases hmarked
      exact hstop
  cases last with
  | none => exact wrapped_keeps wrap marked hstart hstop'
  | some before =>
      refine Keeps.bind (P := fun _ => True) (Keeps.throw ?_) ?_
      · exact Fault.within_between _ _ (hlast before rfl)
      · intro _ _
        exact wrapped_keeps wrap marked hstart hstop'

theorem readFlags_blames {start : List Char} (hstart : start <:+ whole) (flags : Flags)
    (on seen : Bool) (h : cs <:+ whole) :
    Blames whole (fun r => r.2.2 <:+ whole) (readFlags start cs flags on seen) := by
  induction cs generalizing flags on seen with
  | nil => exact Fault.within_whole _ hstart
  | cons c cs ih =>
      have hrest := suffix_of_cons h
      rw [readFlags]
      repeat' split
      all_goals try exact ih _ _ _ hrest
      · exact hrest
      · exact Fault.within_between _ _ hstart

theorem readGroupStart_keeps (h : cs <:+ whole) :
    Keeps whole (fun rest => rest <:+ whole) (readGroupStart cs) := by
  have hinner := drop_suffix_of 2 h
  unfold readGroupStart
  apply Keeps.get.bind
  intro a _
  dsimp only
  split
  · rename_i more hname
    have hmore : more <:+ whole := by
      split at hname
      · rename_i heq
        rw [heq] at hinner
        cases hname
        exact suffix_of_cons (suffix_of_cons hinner)
      · rename_i heq
        rw [heq] at hinner
        cases hname
        exact suffix_of_cons hinner
      · cases hname
    split
    · apply (Keeps.throw (Fault.within_between _ _ h)).onlyIf
      apply (Assembling.openGroup_keeps true _).bind
      intro _ _
      apply Keeps.pure
      apply drop_suffix_of
      exact (List.dropWhile_suffix _).trans hmore
    · exact Keeps.throw (Fault.within_whole _ h)
  · apply (Keeps.lift (readFlags_blames h _ true false hinner)).bind
    intro r hr
    split
    · apply (Assembling.openGroup_keeps false _).bind
      intro _ _
      exact Keeps.pure hr
    · refine Keeps.bind (Keeps.update ?_) ?_
      · intro a
        rfl
      · intro _ _
        exact Keeps.pure hr

theorem pushChar_keeps (c : Nat) : Careful whole (pushChar c) := by
  apply Keeps.get.bind
  intro a _
  exact Assembling.pushNew_keeps _

theorem Keeps.thenRest {m : Assembling PUnit} (hm : Careful whole m)
    (h : rest <:+ whole) :
    Keeps whole (fun rest => rest <:+ whole) (do m; return rest) := by
  apply hm.bind
  intro _ _
  exact Keeps.pure h

theorem readBackslash_keeps (h : cs <:+ whole) :
    Keeps whole (fun rest => rest <:+ whole) (readBackslash cs) := by
  unfold readBackslash
  apply Keeps.get.bind
  intro a _
  split
  · rename_i rest
    apply (Keeps.forM fun c _ => pushChar_keeps _).thenRest
    have hrest := suffix_of_cons (suffix_of_cons h)
    cases hcut : cutAt '\\' 'E' rest with
    | none => exact List.nil_suffix
    | some found => exact (cutAt_suffix hcut).trans hrest
  · exact Keeps.throw (Fault.within_between _ _ h)
  · split
    · exact (Assembling.pushNew_keeps _).thenRest (drop_suffix_of 2 h)
    · apply (Keeps.lift (readProperty?_blames _ h)).bind
      intro found hfound
      cases found with
      | some r => exact (Assembling.pushNew_keeps _).thenRest (hfound r.1 r.2 rfl)
      | none =>
          dsimp only
          split
          · rename_i set rest hset
            exact (Assembling.pushNew_keeps _).thenRest (readEscapedSet?_within _ h set rest hset)
          · apply (Keeps.lift (readEscape_blames h)).bind
            intro r hr
            exact (pushChar_keeps _).thenRest hr

theorem readBraces_keeps {last : Option (List Char)} (h : cs <:+ whole)
    (hlast : forall before, last = some before -> before <:+ whole) :
    Keeps whole (fun r => r.1 <:+ whole) (readBraces cs last) := by
  unfold readBraces
  split
  · apply (pushChar_keeps _).bind
    intro _ _
    exact Keeps.pure (drop_suffix_of 1 h)
  · exact Keeps.throw (Fault.within_between _ _ h)
  · rename_i hcounts
    have hrest := (readCounts?_suffix hcounts).trans h
    apply (Keeps.throw (Fault.within_between _ _ h)).onlyIf
    apply (readRepeat_keeps _ h hrest hlast).bind
    intro rest hr
    exact Keeps.pure hr

theorem readPart_keeps {last : Option (List Char)} (h : c :: cs <:+ whole)
    (hlast : forall before, last = some before -> before <:+ whole) :
    Keeps whole (fun r => r.1 <:+ whole) (readPart c (c :: cs) cs last) := by
  have hrest := suffix_of_cons h
  have hadd : forall {m : Assembling PUnit}, Careful whole m ->
      Keeps whole (fun r => r.1 <:+ whole) (do m; return (cs, false)) := by
    intro m hm
    apply hm.bind
    intro _ _
    exact Keeps.pure hrest
  have htell : forall {m : Assembling (List Char)} (isRepeat : Bool),
      Keeps whole (fun rest => rest <:+ whole) m ->
      Keeps whole (fun r => r.1 <:+ whole) (do return (← m, isRepeat)) := by
    intro m isRepeat hm
    apply hm.bind
    intro _ hr
    exact Keeps.pure hr
  unfold readPart
  apply Keeps.get.bind
  intro a _
  apply Keeps.ite
  · apply Keeps.ite
    · exact htell false (readGroupStart_keeps h)
    · exact hadd (Assembling.openGroup_keeps _ _)
  apply Keeps.ite (hadd Assembling.branch_keeps)
  apply Keeps.ite (hadd Assembling.closeGroup_keeps)
  apply Keeps.ite (hadd (Assembling.pushNew_keeps _))
  apply Keeps.ite (hadd (Assembling.pushNew_keeps _))
  apply Keeps.ite (hadd (Assembling.pushNew_keeps _))
  apply Keeps.ite
  · apply (Keeps.lift (readSet_blames _ h)).bind
    intro r hr
    apply (Assembling.pushNew_keeps _).bind
    intro _ _
    exact Keeps.pure hr
  apply Keeps.ite (htell true (readRepeat_keeps _ h hrest hlast))
  apply Keeps.ite (htell true (readRepeat_keeps _ h hrest hlast))
  apply Keeps.ite (htell true (readRepeat_keeps _ h hrest hlast))
  apply Keeps.ite (readBraces_keeps h hlast)
  apply Keeps.ite (htell false (readBackslash_keeps h))
  exact hadd (pushChar_keeps _)

theorem readParts_keeps (fuel : Nat) {last : Option (List Char)} (h : cs <:+ whole)
    (hlast : forall before, last = some before -> before <:+ whole) :
    Careful whole (readParts fuel cs last) := by
  induction fuel generalizing cs last with
  | zero => exact Keeps.pure trivial
  | succ fuel ih =>
      cases cs with
      | nil => exact Keeps.pure trivial
      | cons c cs =>
          apply (readPart_keeps h hlast).bind
          intro r hr
          apply ih hr
          intro before hbefore
          split at hbefore
          · cases hbefore
            exact h
          · cases hbefore

/-- The part that a refused text is blamed for stands in the text. -/
theorem within_of_read_eq_error {t : Text} {f : Fault} (h : read t = .error f) :
    f.part = t ∨ f.Within t.chars := by
  unfold read at h
  split at h
  · cases h
    exact Or.inl rfl
  · right
    have hcareful : Careful t.chars (do
        readParts (t.chars.length + 1) t.chars none
        Assembling.finish) := by
      apply (readParts_keeps _ List.suffix_rfl _).bind
      · intro _ _
        exact Assembling.finish_keeps
      · intro before hbefore
        cases hbefore
    have hblames := hcareful ⟨t.chars, {}, {}, [], 0, 0, 1, false⟩ rfl
    dsimp only at h
    generalize houtcome : StateT.run (do
        readParts (t.chars.length + 1) t.chars none
        Assembling.finish) ⟨t.chars, {}, {}, [], 0, 0, 1, false⟩ = outcome at h
    cases outcome with
    | ok r => cases h
    | error f' =>
        cases h
        change Blames t.chars _ (StateT.run _ _) at hblames
        rw [houtcome] at hblames
        exact hblames

end Pattern
end TaintTrace

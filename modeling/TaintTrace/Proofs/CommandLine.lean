import Mathlib
import TaintTrace.Command.Line

/-!
# Items of command lines

Behind its name a command line has items: arguments, flags, and pairs of a name and a value.
Each item is read as a whole, whatever its value looks like, so a command has the items of
each kind in their order, and it makes no difference how the kinds are mixed.
-/

namespace TaintTrace
namespace Command

/-- What stands on a command line behind the name of the command. -/
inductive Item where
  | argument (word : Text) (plain : word.head? ≠ some dash ∨ word = [dash])
  | flag (name : Text) (nonempty : name ≠ []) (undashed : name.head? ≠ some dash)
  | pair (name : Text) (nonempty : name ≠ []) (value : Text)

def Dangling : Type :=
  { name : Text // name ≠ [] }

namespace Item

def words : Item -> List Text
  | argument word _ => [word]
  | flag name _ _ => [dash :: name]
  | pair name _ value => [dash :: dash :: name, value]

def argument? : Item -> Option Text
  | argument word _ => some word
  | _ => none

def flag? : Item -> Option Text
  | flag name _ _ => some name
  | _ => none

def pair? : Item -> Option (Text × Text)
  | pair name _ value => some (name, value)
  | _ => none

theorem flag?_eq_some_iff {item : Item} {name : Text} :
    item.flag? = some name <->
      exists nonempty undashed, item = .flag name nonempty undashed := by
  cases item with
  | argument word plain => simp [flag?]
  | flag name' nonempty undashed =>
      constructor
      · intro h
        cases h
        exact ⟨nonempty, undashed, rfl⟩
      · rintro ⟨_, _, h⟩
        cases h
        rfl
  | pair name' nonempty value => simp [flag?]

theorem pair?_eq_some_iff {item : Item} {name value : Text} :
    item.pair? = some (name, value) <-> exists nonempty, item = .pair name nonempty value := by
  cases item with
  | argument word plain => simp [pair?]
  | flag name' nonempty undashed => simp [pair?]
  | pair name' nonempty value' =>
      constructor
      · intro h
        cases h
        exact ⟨nonempty, rfl⟩
      · rintro ⟨_, h⟩
        cases h
        rfl

end Item

def wordsOf (items : List Item) (dangling : Option Dangling) : List Text :=
  items.flatMap Item.words ++ dangling.toList.map fun name => dash :: dash :: name.1

/-!
## Reading items
-/

variable {c : Command} {ws : List Text}

theorem addWords_argument {w : Text} (h : w.head? ≠ some dash ∨ w = [dash]) :
    addWords none (w :: ws) c = addWords none ws { c with args := c.args ++ [w] } := by
  have hflag : ¬ (w.startsWith [dash] = true ∧ 1 < w.length) := by
    rintro ⟨hstarts, hlong⟩
    rcases h with hhead | rfl
    · rcases List.isPrefixOf_iff_prefix.mp hstarts with ⟨rest, rfl⟩
      exact hhead rfl
    · exact absurd hlong (by decide)
  have hpair : ¬ (w.startsWith [dash, dash] = true ∧ 2 < w.length) := by
    rintro ⟨hstarts, hlong⟩
    rcases List.isPrefixOf_iff_prefix.mp hstarts with ⟨rest, rfl⟩
    exact hflag ⟨rfl, by omega⟩
  rw [addWords, if_neg hpair, if_neg hflag]

theorem addWords_flag {name : Text} (hname : name ≠ []) (hdash : name.head? ≠ some dash) :
    addWords none ((dash :: name) :: ws) c =
      addWords none ws { c with flags := c.flags ++ [name] } := by
  have hpair : ¬ (Text.startsWith (dash :: name) [dash, dash] = true ∧
      2 < (dash :: name).length) := by
    rintro ⟨hstarts, _⟩
    rcases List.isPrefixOf_iff_prefix.mp hstarts with ⟨rest, hrest⟩
    cases hrest
    exact hdash rfl
  have hflag : Text.startsWith (dash :: name) [dash] = true ∧ 1 < (dash :: name).length := by
    refine ⟨rfl, ?_⟩
    rw [List.length_cons]
    have := List.length_pos_iff.mpr hname
    omega
  rw [addWords, if_neg hpair, if_pos hflag]
  rfl

theorem addWords_name {name : Text} (hname : name ≠ []) :
    addWords none ((dash :: dash :: name) :: ws) c = addWords (some name) ws c := by
  have hpair : Text.startsWith (dash :: dash :: name) [dash, dash] = true ∧
      2 < (dash :: dash :: name).length := by
    refine ⟨rfl, ?_⟩
    rw [List.length_cons, List.length_cons]
    have := List.length_pos_iff.mpr hname
    omega
  rw [addWords, if_pos hpair]
  rfl

def addItem (c : Command) : Item -> Command
  | .argument word _ => { c with args := c.args ++ [word] }
  | .flag name _ _ => { c with flags := c.flags ++ [name] }
  | .pair name _ value => { c with named := c.named ++ [(name, value)] }

/-- Behind an item nothing is pending: the words of the next one are read afresh. -/
theorem addWords_item (item : Item) :
    addWords none (item.words ++ ws) c = addWords none ws (c.addItem item) := by
  cases item with
  | argument word plain => exact addWords_argument plain
  | flag name nonempty undashed => exact addWords_flag nonempty undashed
  | pair name nonempty value => exact addWords_name nonempty

theorem addWords_items (items : List Item) (c : Command) :
    addWords none (items.flatMap Item.words ++ ws) c =
      addWords none ws (items.foldl addItem c) := by
  induction items generalizing c with
  | nil => rfl
  | cons item items ih =>
      rw [List.flatMap_cons, List.append_assoc, addWords_item, ih, List.foldl_cons]

theorem addWords_wordsOf (items : List Item) (dangling : Option Dangling) (c : Command) :
    addWords none (wordsOf items dangling) c = items.foldl addItem c := by
  rw [wordsOf, addWords_items]
  cases dangling with
  | none => rfl
  | some name => exact addWords_name name.2

theorem foldl_addItem (items : List Item) (c : Command) :
    items.foldl addItem c =
      { name := c.name
        args := c.args ++ items.filterMap Item.argument?
        named := c.named ++ items.filterMap Item.pair?
        flags := c.flags ++ items.filterMap Item.flag? } := by
  induction items generalizing c with
  | nil => simp
  | cons item items ih =>
      rw [List.foldl_cons, ih]
      cases item <;> simp [addItem, List.filterMap_cons, Item.argument?, Item.pair?, Item.flag?]

theorem ofWords_wordsOf (name : Text) (items : List Item) (dangling : Option Dangling) :
    ofWords (name :: wordsOf items dangling) =
      { name := name
        args := items.filterMap Item.argument?
        named := items.filterMap Item.pair?
        flags := items.filterMap Item.flag? } := by
  rw [ofWords, addWords_wordsOf, foldl_addItem]
  rfl

/-!
## Flags and named values
-/

theorem hasFlag_iff {name : Text} : c.hasFlag name = true <-> name ∈ c.flags := by
  rw [hasFlag, List.contains_iff_mem]

theorem value?_eq_some_iff {name value : Text} :
    c.value? name = some value <->
      exists front back, c.named = front ++ (name, value) :: back ∧
        forall p, p ∈ back -> p.1 ≠ name := by
  rw [value?, List.lookup_eq_some_iff]
  constructor
  · rintro ⟨front, back, hsplit, hfront⟩
    refine ⟨back.reverse, front.reverse, ?_, ?_⟩
    · rw [← List.reverse_reverse c.named, hsplit]
      simp
    · intro p hp
      exact (bne_iff_ne.mp (hfront p (List.mem_reverse.mp hp))).symm
  · rintro ⟨front, back, hsplit, hback⟩
    refine ⟨back.reverse, front.reverse, ?_, ?_⟩
    · rw [hsplit]
      simp
    · intro p hp
      exact bne_iff_ne.mpr (hback p (List.mem_reverse.mp hp)).symm

theorem nodup_eraseDups {α : Type} [BEq α] [LawfulBEq α] (xs : List α) : xs.eraseDups.Nodup := by
  match xs with
  | [] => simp
  | x :: xs =>
      rw [List.eraseDups_cons]
      refine List.nodup_cons.mpr ⟨?_, nodup_eraseDups _⟩
      simp [List.mem_eraseDups]
  termination_by xs.length
  decreasing_by exact Nat.lt_succ_of_le (List.length_filter_le _ _)

theorem mem_flagNames {name : Text} : name ∈ c.flagNames <-> c.hasFlag name = true := by
  rw [flagNames, Text.sort, List.mem_mergeSort, List.mem_eraseDups, hasFlag_iff]

theorem nodup_flagNames (c : Command) : c.flagNames.Nodup :=
  (List.mergeSort_perm _ _).nodup_iff.mpr (nodup_eraseDups _)

theorem mem_namedValues {name value : Text} :
    (name, value) ∈ c.namedValues <-> c.value? name = some value := by
  unfold namedValues
  rw [List.mem_filterMap]
  constructor
  · rintro ⟨n, _, hn⟩
    rcases Option.map_eq_some_iff.mp hn with ⟨v, hv, heq⟩
    cases heq
    exact hv
  · intro hvalue
    refine ⟨name, ?_, by rw [hvalue]; rfl⟩
    rcases value?_eq_some_iff.mp hvalue with ⟨front, back, hsplit, _⟩
    rw [Text.sort, List.mem_mergeSort, List.mem_eraseDups, hsplit]
    simp

theorem nodup_namedValues (c : Command) : (c.namedValues.map Prod.fst).Nodup := by
  unfold namedValues
  rw [List.map_filterMap]
  apply List.Nodup.filterMap
  · intro n n' name hn hn'
    simp only [Option.map_map, Option.mem_def, Option.map_eq_some_iff,
      Function.comp_apply] at hn hn'
    rcases hn with ⟨_, _, rfl⟩
    rcases hn' with ⟨_, _, rfl⟩
    rfl
  · exact (List.mergeSort_perm _ _).nodup_iff.mpr (nodup_eraseDups _)

/-- Whether a value stands in the last of some items that are pairs with a name. -/
def LastPair (items : List Item) (name value : Text) : Prop :=
  exists front back nonempty, items = front ++ .pair name nonempty value :: back ∧
    forall item, item ∈ back -> forall nonempty' value', item ≠ .pair name nonempty' value'

theorem lastPair_iff {items : List Item} {name value : Text} :
    LastPair items name value <->
      exists front back, items.filterMap Item.pair? = front ++ (name, value) :: back ∧
        forall p, p ∈ back -> p.1 ≠ name := by
  constructor
  · rintro ⟨front, back, nonempty, rfl, hback⟩
    refine ⟨front.filterMap Item.pair?, back.filterMap Item.pair?, ?_, ?_⟩
    · simp [Item.pair?]
    · rintro ⟨n, v⟩ hp hname
      rcases List.mem_filterMap.mp hp with ⟨item, hitem, hpair⟩
      rcases Item.pair?_eq_some_iff.mp hpair with ⟨nonempty', rfl⟩
      cases hname
      exact hback _ hitem nonempty' v rfl
  · rintro ⟨front, back, hsplit, hback⟩
    rcases List.filterMap_eq_append_iff.mp hsplit with ⟨before, rest, rfl, _, hrest⟩
    rcases List.filterMap_eq_cons_iff.mp hrest with ⟨between, item, after, rfl, _, hpair, hafter⟩
    rcases Item.pair?_eq_some_iff.mp hpair with ⟨nonempty, rfl⟩
    refine ⟨before ++ between, after, nonempty, by simp, ?_⟩
    rintro _ hitem nonempty' value' rfl
    refine hback (name, value') ?_ rfl
    rw [← hafter]
    exact List.mem_filterMap.mpr ⟨_, hitem, rfl⟩

/-- A line whose words are a name and the words of items is the command with that name and
these items: the arguments in order, the flags as a set, and for each name the value of its
last pair, also where the values begin with dashes.  A name at the end that no value follows
has no effect. -/
theorem ofLine_items (line name : Text) (items : List Item) (dangling : Option Dangling)
    (hwords : Words.split line = some (name :: wordsOf items dangling)) :
    (ofLine line).name = name ∧
    (ofLine line).args = items.filterMap Item.argument? ∧
    (forall f, (ofLine line).hasFlag f = true <->
      exists nonempty undashed, .flag f nonempty undashed ∈ items) ∧
    (forall n v, (ofLine line).value? n = some v <-> LastPair items n v) ∧
    (ofLine line).flagNames.Nodup ∧
    (forall f, f ∈ (ofLine line).flagNames <->
      exists nonempty undashed, .flag f nonempty undashed ∈ items) ∧
    ((ofLine line).namedValues.map Prod.fst).Nodup ∧
    (forall n v, (n, v) ∈ (ofLine line).namedValues <-> LastPair items n v) ∧
    ofLine line = ofWords (name :: wordsOf items none) := by
  have hline : ofLine line = ofWords (name :: wordsOf items dangling) := by
    rw [ofLine, hwords]
    rfl
  have hflag : forall f, (ofLine line).hasFlag f = true <->
      exists nonempty undashed, Item.flag f nonempty undashed ∈ items := by
    intro f
    rw [hline, ofWords_wordsOf, hasFlag_iff, List.mem_filterMap]
    constructor
    · rintro ⟨item, hitem, hf⟩
      rcases Item.flag?_eq_some_iff.mp hf with ⟨nonempty, undashed, rfl⟩
      exact ⟨nonempty, undashed, hitem⟩
    · rintro ⟨nonempty, undashed, hitem⟩
      exact ⟨_, hitem, rfl⟩
  have hvalue : forall n v, (ofLine line).value? n = some v <-> LastPair items n v := by
    intro n v
    rw [hline, ofWords_wordsOf, value?_eq_some_iff, lastPair_iff]
  refine ⟨?_, ?_, hflag, hvalue, nodup_flagNames _, ?_, nodup_namedValues _, ?_, ?_⟩
  · rw [hline, ofWords_wordsOf]
  · rw [hline, ofWords_wordsOf]
  · intro f
    rw [mem_flagNames, hflag]
  · intro n v
    rw [mem_namedValues, hvalue]
  · rw [hline, ofWords_wordsOf, ofWords_wordsOf]

/-- Values that begin with dashes, a name and a flag that are given twice, a single dash and an
empty argument. -/
def medley : List Item :=
  [.argument [dash] (by decide), .pair "depth" (by decide) "--x", .flag "f" (by decide) (by decide),
    .argument [] (by decide), .pair "depth" (by decide) "-4", .flag "f" (by decide) (by decide)]

def medleyLine : Text := "tree - --depth --x -f '' --depth -4 -f --y"

theorem ofLine_items_medley :
    Words.split medleyLine =
      some (("tree" : Text) :: wordsOf medley (some ⟨"y", by decide⟩)) ∧
    (ofLine medleyLine).args = [[dash], []] ∧
    (ofLine medleyLine).value? "depth" = some "-4" ∧
    (ofLine medleyLine).flagNames.Nodup ∧ (ofLine medleyLine).hasFlag "f" = true := by
  have hwords : Words.split medleyLine =
      some (("tree" : Text) :: wordsOf medley (some ⟨"y", by decide⟩)) := rfl
  rcases ofLine_items _ _ _ _ hwords with ⟨_, hargs, hflag, hvalue, hnodup, _⟩
  refine ⟨hwords, hargs, (hvalue "depth" "-4").mpr ?_, hnodup, (hflag "f").mpr ?_⟩
  · refine ⟨medley.take 4, medley.drop 5, by decide, rfl, ?_⟩
    rintro _ (_ | ⟨_, hitem⟩) _ _ hpair
    · cases hpair
    · cases hitem
  · exact ⟨by decide, by decide, List.mem_cons_of_mem _ (List.mem_cons_of_mem _ List.mem_cons_self)⟩

end Command
end TaintTrace

import XPathTree.Proofs.Double.Whole
import XPathTree.Text.Slice

/-!
# Positions in a text

A slice takes the characters at certain positions (`atPositions`), and between whole numbers these
are the positions that lie between them (`slice_some_eq`, `slice_none_eq`): that positions are
compared as doubles does not show. The positions below a bound make up the front of the text and
the others what is left of it, so a text can be put together from two slices that meet.
-/

namespace XPathTree.Text

variable {text : List Char} {first stop : Double} {a b : Int}

/-- The characters at the accepted positions, in order; the first position is 1. -/
def atPositions (accepts : Nat → Bool) (text : List Char) : List Char :=
  ((text.zipIdx 1).filter fun entry => accepts entry.2).map Prod.fst

theorem filterMap_eq_map_filter (accepts : Nat → Bool) (entries : List (Char × Nat)) :
    (entries.filterMap fun (c, position) => if accepts position then some c else none) =
      (entries.filter fun entry => accepts entry.2).map Prod.fst := by
  induction entries with
  | nil => rfl
  | cons entry entries ih =>
      by_cases haccepts : accepts entry.2 = true
      · simp [haccepts, ih]
      · simp [haccepts, ih]

/-- It only matters which positions of the text are accepted. -/
theorem atPositions_congr {accepts accepts' : Nat → Bool}
    (h : ∀ position, 0 < position → position ≤ text.length →
      accepts position = accepts' position) :
    atPositions accepts text = atPositions accepts' text := by
  unfold atPositions
  refine congrArg _ (List.filter_congr fun entry hentry => h entry.2 ?_ ?_)
  · exact List.le_snd_of_mem_zipIdx hentry
  · exact Nat.le_of_lt_succ (List.snd_lt_of_mem_zipIdx hentry)

/-! ## Slices between whole numbers -/

theorem slice_eq (first : Double) (stop : Option Double) (text : List Char) :
    slice first stop text = atPositions (fun position =>
      first.lessOrEqual (.ofNat position) && stop.all (Double.ofNat position).lessThan) text :=
  filterMap_eq_map_filter (fun position =>
    first.lessOrEqual (.ofNat position) && stop.all (Double.ofNat position).lessThan) _

theorem slice_some_eq (hfirst : first.IsInt a) (hstop : stop.IsInt b)
    (ha : a.natAbs ≤ Nat.pow 2 53) (hb : b.natAbs ≤ Nat.pow 2 53) (text : List Char) :
    slice first (some stop) text =
      atPositions (fun position => decide (a ≤ position ∧ position < b)) text := by
  rw [slice_eq]
  refine atPositions_congr fun position _ _ => ?_
  rw [hfirst.lessOrEqual_ofNat ha, Option.all_some, hstop.ofNat_lessThan hb, Bool.decide_and]

theorem slice_none_eq (hfirst : first.IsInt a) (ha : a.natAbs ≤ Nat.pow 2 53)
    (text : List Char) :
    slice first none text = atPositions (fun position => decide (a ≤ position)) text := by
  rw [slice_eq]
  refine atPositions_congr fun position _ _ => ?_
  rw [hfirst.lessOrEqual_ofNat ha, Option.all_none, Bool.and_true]

/-! ## A text in two parts -/

theorem map_filter_zipIdx_lt (text : List Char) (start : Nat) (bound : Int) :
    ((text.zipIdx start).filter fun entry => decide ((entry.2 : Int) < bound)).map Prod.fst =
      text.take (bound - start).toNat := by
  induction text generalizing start with
  | nil => rw [List.take_nil]; rfl
  | cons c text ih =>
      rw [List.zipIdx_cons, List.filter_cons]
      by_cases hlt : (start : Int) < bound
      · have hcount : (bound - start).toNat = (bound - (start + 1 : Nat)).toNat + 1 := by omega
        rw [if_pos (decide_eq_true hlt), List.map_cons, ih, hcount, List.take_succ_cons]
      · have hcount : (bound - start).toNat = 0 := by omega
        have hcount' : (bound - (start + 1 : Nat)).toNat = 0 := by omega
        rw [if_neg (by simp [hlt]), ih, hcount, hcount', List.take_zero, List.take_zero]

theorem map_filter_zipIdx_ge (text : List Char) (start : Nat) (bound : Int) :
    ((text.zipIdx start).filter fun entry => decide (bound ≤ (entry.2 : Int))).map Prod.fst =
      text.drop (bound - start).toNat := by
  induction text generalizing start with
  | nil => rw [List.drop_nil]; rfl
  | cons c text ih =>
      rw [List.zipIdx_cons, List.filter_cons]
      by_cases hle : bound ≤ (start : Int)
      · have hcount : (bound - start).toNat = 0 := by omega
        have hcount' : (bound - (start + 1 : Nat)).toNat = 0 := by omega
        rw [if_pos (decide_eq_true hle), List.map_cons, ih, hcount, hcount', List.drop_zero,
          List.drop_zero]
      · have hcount : (bound - start).toNat = (bound - (start + 1 : Nat)).toNat + 1 := by omega
        rw [if_neg (by simp [hle]), ih, hcount, List.drop_succ_cons]

/-- The characters below a position and those from there on make up the text. -/
theorem atPositions_append (bound : Int) (text : List Char) :
    atPositions (fun position => decide ((position : Int) < bound)) text ++
      atPositions (fun position => decide (bound ≤ (position : Int))) text = text := by
  unfold atPositions
  rw [map_filter_zipIdx_lt, map_filter_zipIdx_ge, List.take_append_drop]

end XPathTree.Text

import AddonExchange.Sync.Difference

/-! The frames of a difference settle to what recursion gives. A frame stands behind that of the
directory above it, so when the frames are settled from the last to the first, everything below a
directory is in its slots before the directory itself is delivered. -/

namespace AddonExchange

namespace Frame

variable {before after : List Frame} {parent : Option Nat}

/-- Whether the frame that a directory goes to, if it goes to one, is among the first so many. -/
def IsWithin (count : Nat) (parent : Option Nat) : Prop :=
  ∀ position, parent = some position → position < count

theorem IsWithin.succ {count : Nat} (within : IsWithin count parent) :
    IsWithin (count + 1) parent :=
  fun position isParent => Nat.lt_succ_of_lt (within position isParent)

private theorem isWithin_of_mem_below {pair below : Comparison} {position : Nat}
    (member : below ∈ pair.below position) : IsWithin (position + 1) below.parent := by
  intro parent isParent
  obtain ⟨placed, _, rfl⟩ := List.mem_map.mp (List.mem_reverse.mp member)
  cases isParent
  exact Nat.lt_succ_self _

section Delivering

private theorem modify_append {position : Nat} (within : position < before.length)
    (change : Frame → Frame) :
    (before ++ after).modify position change = before.modify position change ++ after := by
  induction before generalizing position with
  | nil => cases within
  | cons frame rest ih =>
    cases position with
    | zero => rfl
    | succ position =>
      rw [List.cons_append, List.modify_succ_cons, List.modify_succ_cons,
        ih (Nat.lt_of_succ_lt_succ within), List.cons_append]

private theorem deliver_append (within : IsWithin before.length parent) (slot : Nat) (found : Dir) :
    deliver parent slot found (before ++ after) = deliver parent slot found before ++ after := by
  cases parent with
  | none => rfl
  | some position =>
    rw [deliver, deliver, modify_append (within position rfl)]
    split <;> rfl

theorem length_deliver (parent : Option Nat) (slot : Nat) (found : Dir) (frames : List Frame) :
    (deliver parent slot found frames).length = frames.length := by
  cases parent with
  | none => rfl
  | some position =>
    rw [deliver]
    split
    · rfl
    · exact List.length_modify _ _ _

/-- What is in a slot that was vacant after a delivery to it. -/
def held (found : Dir) : Option Dir := Option.guard (fun dir => !dir.isEmpty) found

/-- A delivery to the frame behind some others changes the slot that it is for. -/
theorem deliver_vacant (found : Dir) (node : Dir) (parent : Option Nat) (slot : Nat)
    (filled vacant : List (Option Dir)) :
    deliver (some before.length) filled.length found
        (before ++ [⟨node, parent, slot, filled ++ none :: vacant⟩]) =
      before ++ [⟨node, parent, slot, filled ++ held found :: vacant⟩] := by
  rw [deliver, held, Option.guard]
  cases found.isEmpty with
  | true => rfl
  | false =>
    rw [if_neg Bool.false_ne_true, List.modify_eq_take_drop, List.take_left, List.drop_left]
    simp [fill]

/-- Deliveries to all slots of the frame behind some others, in the order of the slots. -/
theorem foldl_deliver (result : Dir → Dir) (node : Dir) (parent : Option Nat) (slot : Nat)
    (filled : List (Option Dir)) (dirs : List Dir) :
    (dirs.zipIdx filled.length).foldl
        (fun frames placed => deliver (some before.length) placed.2 (result placed.1) frames)
        (before ++ [⟨node, parent, slot, filled ++ List.replicate dirs.length none⟩]) =
      before ++ [⟨node, parent, slot, filled ++ dirs.map fun dir => held (result dir)⟩] := by
  induction dirs generalizing filled with
  | nil => rfl
  | cons dir rest ih =>
    have later := ih (filled ++ [held (result dir)])
    rw [List.length_append, List.length_singleton, List.append_assoc, List.append_assoc] at later
    rw [List.zipIdx_cons, List.foldl_cons, List.length_cons, List.replicate_succ, deliver_vacant]
    exact later

end Delivering

section Settling

/-- Settling the frame behind some others delivers its directory to one of them. -/
theorem settleAt_length {frame : Frame}
    (within : IsWithin before.length frame.parent) :
    settleAt before.length (before ++ frame :: after) =
      deliver frame.parent frame.slot frame.settled.node before ++ frame.settled :: after := by
  have found : (before ++ frame :: after)[before.length]? = some frame := by simp
  have replaced : (before ++ frame :: after).set before.length frame.settled =
      before ++ frame.settled :: after := by simp
  rw [settleAt, found]
  simp only [replaced]
  exact deliver_append within frame.slot frame.settled.node

end Settling

end Frame

namespace Dir

/-- The recursion on the second tree: the missing files of a directory, and below it what the
recursion gives for its subdirectories, as far as there is anything in it. -/
def RecursivePart (withContents : Bool) (part : Dir → Dir → Dir) : Prop :=
  ∀ source target, part source target =
    ⟨target.name, missingFiles withContents source target,
      (target.dirs.map fun dir => part (source.counterpart dir.name) dir).filter fun found =>
        !found.isEmpty⟩

variable {withContents : Bool} {part : Dir → Dir → Dir}

/-- Delivers what the recursion gives for a comparison. -/
def deliverPart (part : Dir → Dir → Dir) (pair : Comparison) (frames : List Frame) : List Frame :=
  Frame.deliver pair.parent pair.slot (part pair.source pair.target) frames

private theorem length_foldr_deliverPart (part : Dir → Dir → Dir) (waiting : List Comparison)
    (frames : List Frame) : (waiting.foldr (deliverPart part) frames).length = frames.length := by
  induction waiting with
  | nil => rfl
  | cons pair rest ih => rw [List.foldr_cons, deliverPart, Frame.length_deliver, ih]

/-- Comparisons that wait have their places among the frames that were there before. -/
theorem foldr_deliverPart_append {waiting : List Comparison} {before after : List Frame}
    (within : ∀ pair ∈ waiting, Frame.IsWithin before.length pair.parent) :
    waiting.foldr (deliverPart part) (before ++ after) =
      waiting.foldr (deliverPart part) before ++ after := by
  induction waiting with
  | nil => rfl
  | cons pair rest ih =>
    obtain ⟨here, later⟩ := List.forall_mem_cons.mp within
    rw [← length_foldr_deliverPart part rest before] at here
    rw [List.foldr_cons, List.foldr_cons, ih later]
    exact Frame.deliver_append here pair.slot _

/-- The frame of a comparison with all below it delivered. -/
def completed (withContents : Bool) (part : Dir → Dir → Dir) (pair : Comparison) : Frame :=
  { Frame.ofComparison withContents pair with
    children := pair.target.dirs.map fun dir =>
      Frame.held (part (pair.source.counterpart dir.name) dir) }

private theorem foldr_deliverPart_below (pair : Comparison) (before : List Frame) :
    (pair.below before.length).foldr (deliverPart part)
        (before ++ [Frame.ofComparison withContents pair]) =
      before ++ [completed withContents part pair] := by
  rw [Comparison.below, List.foldr_reverse, List.foldl_map]
  exact Frame.foldl_deliver (fun dir => part (pair.source.counterpart dir.name) dir) _ _ _ [] _

private theorem node_settled_completed (recursive : RecursivePart withContents part)
    (pair : Comparison) :
    (completed withContents part pair).settled.node = part pair.source pair.target := by
  rw [recursive, ← List.filterMap_eq_filter, List.filterMap_map]
  simp only [Frame.settled, completed, Frame.ofComparison, List.filterMap_map]
  rfl

/-- Settling one more frame, after all behind it have been settled, delivers what the recursion
gives for its comparison. -/
theorem settleAt_delivered (recursive : RecursivePart withContents part) {pair : Comparison}
    {waiting : List Comparison} {before : List Frame} (settled : List Frame)
    (within : ∀ next ∈ pair :: waiting, Frame.IsWithin before.length next.parent) :
    Frame.settleAt before.length ((pair.below before.length ++ waiting).foldr (deliverPart part)
        (before ++ [Frame.ofComparison withContents pair]) ++ settled) =
      (pair :: waiting).foldr (deliverPart part) before ++
        (completed withContents part pair).settled :: settled := by
  obtain ⟨here, later⟩ := List.forall_mem_cons.mp within
  have sameLength := length_foldr_deliverPart part waiting before
  rw [List.foldr_append, foldr_deliverPart_append later, ← sameLength, foldr_deliverPart_below,
    List.append_assoc, List.singleton_append, Frame.settleAt_length (sameLength ▸ here),
    node_settled_completed recursive]
  rfl

/-- Settling the frames of the comparisons that wait, behind some others, delivers to these what
the recursion gives, and to nothing else. The first frame has the directory of the first
comparison. -/
theorem settle_framesFrom (recursive : RecursivePart withContents part) (position : Nat)
    (waiting : List Comparison) (before : List Frame) (count : before.length = position)
    (within : ∀ pair ∈ waiting, Frame.IsWithin position pair.parent) :
    ∃ settled : List Frame,
      (List.range' position (framesFrom withContents position waiting).length).foldr Frame.settleAt
          (before ++ framesFrom withContents position waiting) =
        waiting.foldr (deliverPart part) before ++ settled ∧
      settled.head?.map Frame.node =
        waiting.head?.map fun pair => part pair.source pair.target := by
  induction position, waiting using framesFrom.induct generalizing before with
  | case1 position => exact ⟨[], by simp [framesFrom], rfl⟩
  | case2 position pair waiting ih =>
    subst count
    -- The frames behind this one are settled first: those of its own subdirectories fill its slots,
    -- all others go to frames before it.
    have withinNext : ∀ next ∈ pair.below before.length ++ waiting,
        Frame.IsWithin (before.length + 1) next.parent :=
      List.forall_mem_append.mpr ⟨fun next => Frame.isWithin_of_mem_below,
        fun next waits => (within next (List.mem_cons_of_mem pair waits)).succ⟩
    obtain ⟨settled, delivered, _⟩ :=
      ih (before ++ [Frame.ofComparison withContents pair]) (by simp) withinNext
    refine ⟨(completed withContents part pair).settled :: settled, ?_, ?_⟩
    · rw [framesFrom, List.length_cons, List.range'_succ, List.foldr_cons, List.append_cons,
        delivered]
      exact settleAt_delivered recursive settled within
    · simp [node_settled_completed recursive]

theorem difference_eq_recursivePart (recursive : RecursivePart withContents part)
    (source target : Dir) : source.difference withContents target = part source target := by
  let root : Comparison := ⟨source, target, none, 0⟩
  have within : ∀ pair ∈ [root], Frame.IsWithin 0 pair.parent :=
    List.forall_mem_singleton.mpr fun _ isParent => nomatch isParent
  obtain ⟨settled, delivered, first⟩ := settle_framesFrom recursive 0 [root] [] rfl within
  have all : Frame.settleAll (framesFrom withContents 0 [root]) = settled := by
    rw [Frame.settleAll, List.range_eq_range']
    exact delivered
  obtain ⟨frame, isFirst, node⟩ := Option.map_eq_some_iff.mp first
  rw [difference, all, isFirst]
  exact node

end Dir

end AddonExchange

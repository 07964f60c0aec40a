/-
Sorting by runs: the list is cut into runs that already ascend, short runs are filled up by insertion, and
neighbouring runs are merged, shorter ones first.

Where everything can be compared this is one way of many to the ascending order. An element that is neither
less nor greater than the others counts as equal to each of them, and then the result depends on which pairs
are compared; that is what is fixed here. `perm_sort` says that nothing is lost either way.

Two devices save comparisons. A search by halving looks at the middle of what is left. A gallop looks at the
places 0, 1, 3, 7 and so on until an element fails, and halves what lies between the last two; a merge
gallops on both sides in turn once one side has won often enough in a row.
-/

namespace PacketStack.RunSort

variable {α : Type}

/--
Looks by halving for the end of the elements that pass, between `low` and `high`. Read from its end, a list
has its middle at the same element.
-/
def halve (fromEnd : Bool) (passes : α → Bool) (xs : List α) (low high : Nat) : Nat :=
  if low < high then
    let middle := low + (high - low - fromEnd.toNat) / 2
    if (xs[middle]?).any passes then halve fromEnd passes xs (middle + 1) high
    else halve fromEnd passes xs low middle
  else high
termination_by high - low

/-- The last place that passed, and the one looked at after it. -/
def stride (passes : α → Bool) (xs : List α) (last place : Nat) : Nat × Nat :=
  if place < xs.length ∧ (xs[place]?).any passes then stride passes xs place (2 * place + 1)
  else (last, min place xs.length)
termination_by xs.length - place

/-- How many elements in front pass, as far as galloping looks. -/
def gallop (fromEnd : Bool) (passes : α → Bool) (xs : List α) : Nat :=
  if (xs.head?).any passes then
    let (last, place) := stride passes xs 0 1
    halve fromEnd passes xs (last + 1) place
  else 0

/-! ## Runs -/

variable (lt : α → α → Bool)

/-- Puts `x` in front of the first element that halving finds greater. -/
def insert (sorted : List α) (x : α) : List α :=
  let place := halve false (fun y => !lt x y) sorted 0 sorted.length
  sorted.take place ++ x :: sorted.drop place

/-- Splits off the longest front whose neighbours are related by `next`, given the element before it. -/
def chain (next : α → α → Bool) (before : α) : List α → List α × List α
  | [] => ([], [])
  | x :: rest =>
    if next before x then (x :: (chain next x rest).1, (chain next x rest).2) else ([], x :: rest)

/-- The run in front of a list, and what follows it. A run that falls is turned round. -/
def firstRun : List α → List α × List α
  | x :: y :: rest =>
    if lt y x then
      let (front, back) := chain (fun a b => lt b a) y rest
      ((x :: y :: front).reverse, back)
    else
      let (front, back) := chain (fun a b => !lt b a) y rest
      (x :: y :: front, back)
  | xs => (xs, [])

/-- The run in front of a list, filled up to `size` elements if there are so many. -/
def filledRun (size : Nat) (xs : List α) : List α × List α :=
  let split := firstRun lt xs
  let missing := size - split.1.length
  ((split.2.take missing).foldl (insert lt) split.1, split.2.drop missing)

/-- What a run is filled up to: the six high bits of the number of elements, rounded up. -/
def runSize (count rounding : Nat) : Nat :=
  if count < 64 then count + rounding else runSize (count / 2) (max rounding (count % 2))

theorem perm_insert (sorted : List α) (x : α) : (insert lt sorted x).Perm (x :: sorted) := by
  have whole := List.take_append_drop (halve false (fun y => !lt x y) sorted 0 sorted.length) sorted
  exact List.perm_middle.trans (.cons x (.of_eq whole))

theorem perm_foldl_insert (xs sorted : List α) : (xs.foldl (insert lt) sorted).Perm (sorted ++ xs) := by
  induction xs generalizing sorted with
  | nil => rw [List.append_nil]; exact .refl _
  | cons x xs ih => exact (ih _).trans (((perm_insert lt sorted x).append_right xs).trans List.perm_middle.symm)

theorem chain_append (next : α → α → Bool) (before : α) (xs : List α) :
    (chain next before xs).1 ++ (chain next before xs).2 = xs := by
  fun_induction chain next before xs with
  | case1 => rfl
  | case2 _ x rest _ ih => exact congrArg (x :: ·) ih
  | case3 => rfl

theorem perm_firstRun (xs : List α) : ((firstRun lt xs).1 ++ (firstRun lt xs).2).Perm xs := by
  unfold firstRun
  split
  · next x y rest =>
    split
    · refine ((List.reverse_perm _).append_right _).trans (.of_eq ?_)
      exact congrArg (x :: y :: ·) (chain_append _ y rest)
    · exact .of_eq (congrArg (x :: y :: ·) (chain_append _ y rest))
  · exact .of_eq (List.append_nil _)

theorem firstRun_ne_nil {xs : List α} (h : xs ≠ []) : (firstRun lt xs).1 ≠ [] := by
  unfold firstRun
  split
  · split <;> simp
  · exact h

theorem perm_filledRun (size : Nat) (xs : List α) :
    ((filledRun lt size xs).1 ++ (filledRun lt size xs).2).Perm xs := by
  refine ((perm_foldl_insert lt _ _).append_right _).trans ?_
  refine .trans (.of_eq ?_) (perm_firstRun lt xs)
  rw [List.append_assoc]
  exact congrArg ((firstRun lt xs).1 ++ ·) (List.take_append_drop _ _)

theorem length_filledRun_lt (size : Nat) {xs : List α} (h : xs ≠ []) :
    (filledRun lt size xs).2.length < xs.length := by
  have whole := (perm_firstRun lt xs).length_eq
  have some := List.length_pos_iff.mpr (firstRun_ne_nil lt h)
  rw [List.length_append] at whole
  simp only [filledRun, List.length_drop]
  omega

/-- The runs of a list, each filled up to `size`. -/
def runs (size : Nat) (xs : List α) : List (List α) :=
  if _ : xs = [] then []
  else (filledRun lt size xs).1 :: runs size (filledRun lt size xs).2
termination_by xs.length
decreasing_by exact length_filledRun_lt lt size ‹_›

theorem perm_runs (size : Nat) (xs : List α) : (runs lt size xs).flatten.Perm xs := by
  fun_induction runs lt size xs with
  | case1 => exact .refl _
  | case2 xs _ ih => exact (ih.append_left _).trans (perm_filledRun lt size xs)

/-! ## Merging -/

/-- How a merge goes on. -/
inductive Pace
  /-- Element by element, after so many wins in a row of either side. -/
  | stepping (held other : Nat)
  /-- Run by run, after a run of the other side if this is the second of a round. -/
  | galloping (fromHeld : Bool) (first : Option Nat)

/-- Wins that keep a merge galloping. -/
def manyWins : Nat := 7

/-- How it goes on after a run, and the wins that it takes to gallop from then on. -/
def Pace.afterRun (fromHeld : Bool) (first : Option Nat) (wins threshold : Nat) : Pace × Nat :=
  match first with
  | none => (galloping (!fromHeld) (some wins), threshold)
  | some firstWins =>
    if manyWins ≤ firstWins ∨ manyWins ≤ wins then (galloping (!fromHeld) none, max 1 (threshold - 1))
    else (stepping 0 0, threshold + 1)

/--
Merges two sides from the ends at which they begin. `yields h o` says that the held side lets the other go
first. When one held element is left, the rest of the other side goes in front of it without being looked
at. With the merged elements comes the number of wins in a row that it takes to gallop: `threshold` if the
merge is over, `next` if it goes on.
-/
def mergeSides (yields : α → α → Bool) (fromEnd : Bool) (pace : Pace) (threshold next : Nat) :
    List α → List α → List α × Nat
  | [h], other => (other ++ [h], threshold)
  | h :: hs, o :: os =>
    match pace with
    | .stepping heldWins otherWins =>
      if yields h o then
        let wins := otherWins + 1
        let pace := if next ≤ wins then .galloping (!fromEnd) none else .stepping 0 wins
        let rest := mergeSides yields fromEnd pace next next (h :: hs) os
        (o :: rest.1, rest.2)
      else
        let wins := heldWins + 1
        let pace := if next ≤ wins then .galloping (!fromEnd) none else .stepping wins 0
        let rest := mergeSides yields fromEnd pace next next hs (o :: os)
        (h :: rest.1, rest.2)
    | .galloping true first =>
      let wins := gallop fromEnd (fun h => !yields h o) (h :: hs)
      let run := (h :: hs).take wins
      let left := (h :: hs).drop wins
      if left.length < 2 then (run ++ o :: (os ++ left), next)
      else
        let (pace, later) := Pace.afterRun true first wins next
        let rest := mergeSides yields fromEnd pace next later left os
        (run ++ o :: rest.1, rest.2)
    | .galloping false first =>
      let wins := gallop fromEnd (fun o => yields h o) (o :: os)
      let run := (o :: os).take wins
      let left := (o :: os).drop wins
      if left.isEmpty then (run ++ h :: hs, next)
      else
        let (pace, later) := Pace.afterRun false first wins next
        let rest := mergeSides yields fromEnd pace next later hs left
        (run ++ h :: rest.1, rest.2)
  | held, [] => (held, threshold)
  | [], other => (other, threshold)
termination_by held other => held.length + other.length

theorem perm_mergeSides (yields : α → α → Bool) (fromEnd : Bool) (pace : Pace) (threshold next : Nat) (held other : List α) :
    (mergeSides yields fromEnd pace threshold next held other).1.Perm (held ++ other) := by
  fun_induction mergeSides yields fromEnd pace threshold next held other with
  | case1 => exact List.perm_append_comm
  | case2 _ _ h hs o os _ _ _ _ _ _ _ ih => exact (ih.cons o).trans List.perm_middle.symm
  | case3 _ _ h hs o os _ _ _ _ _ _ _ ih => exact ih.cons h
  | case4 _ _ h hs o os _ _ wins run left _ =>
    rw [← List.take_append_drop wins (h :: hs), List.append_assoc]
    have swapped : (o :: os ++ left).Perm (left ++ o :: os) := List.perm_append_comm
    exact .append_left run swapped
  | case5 _ _ h hs o os _ _ wins run left _ _ _ _ _ ih =>
    rw [← List.take_append_drop wins (h :: hs), List.append_assoc]
    exact .append_left run ((ih.cons o).trans List.perm_middle.symm)
  | case6 _ _ h hs o os _ _ wins run left done =>
    have all : run ++ left = o :: os := List.take_append_drop wins (o :: os)
    rw [← all, List.isEmpty_iff.mp done, List.append_nil]
    exact List.perm_append_comm
  | case7 _ _ h hs o os _ _ wins run left _ _ _ _ _ ih =>
    rw [← List.take_append_drop wins (o :: os)]
    exact ((ih.cons h).append_left run).trans (List.perm_append_comm_assoc run (h :: hs) left)
  | case8 => exact .of_eq (List.append_nil _).symm
  | case9 => exact .refl _

/-- Merges two sides, of which the other goes first. -/
def mergeApart (yields : α → α → Bool) (fromEnd : Bool) (threshold : Nat) (held : List α) : List α → List α × Nat
  | [] => (held, threshold)
  | o :: os =>
    let rest := mergeSides yields fromEnd (.stepping 0 0) threshold threshold held os
    (o :: rest.1, rest.2)

theorem perm_mergeApart (yields : α → α → Bool) (fromEnd : Bool) (threshold : Nat) (held other : List α) :
    (mergeApart yields fromEnd threshold held other).1.Perm (held ++ other) := by
  cases other with
  | nil => exact .of_eq (List.append_nil _).symm
  | cons o os => exact ((perm_mergeSides ..).cons o).trans List.perm_middle.symm

/-- Merges two runs, of which the shorter is held back and the other may give away everything. -/
def mergeWhole (threshold : Nat) (first second : List α) : List α × Nat :=
  if first.length ≤ second.length then mergeApart (fun held other => lt other held) false threshold first second
  else
    let merged := mergeApart (fun held other => lt held other) true threshold second.reverse first.reverse
    (merged.1.reverse, merged.2)

theorem perm_mergeWhole (threshold : Nat) (first second : List α) :
    (mergeWhole lt threshold first second).1.Perm (first ++ second) := by
  unfold mergeWhole
  split
  · exact perm_mergeApart ..
  · refine (List.reverse_perm _).trans ((perm_mergeApart ..).trans ?_)
    exact List.perm_append_comm.trans ((List.reverse_perm _).append (List.reverse_perm _))

/--
Merges neighbouring runs. What the first has in front of the whole second one, and the second behind the
whole first one, is left alone.
-/
def mergeRuns (threshold : Nat) (first second : List α) : List α × Nat :=
  let before := second.head?.elim first.length fun least => gallop false (fun x => !lt least x) first
  let upper := first.drop before
  let behind := upper.getLast?.elim second.length fun greatest => gallop true (fun x => !lt x greatest) second.reverse
  let lower := second.length - behind
  let merged := mergeWhole lt threshold upper (second.take lower)
  (first.take before ++ (merged.1 ++ second.drop lower), merged.2)

theorem perm_mergeRuns (threshold : Nat) (first second : List α) :
    (mergeRuns lt threshold first second).1.Perm (first ++ second) := by
  unfold mergeRuns
  extract_lets before upper behind lower merged
  have front : first.take before ++ upper = first := List.take_append_drop before first
  have merged : merged.1.Perm (upper ++ second.take lower) := perm_mergeWhole ..
  refine .trans (.append_left _ (merged.append_right _)) (.of_eq ?_)
  rw [List.append_assoc, List.take_append_drop, ← List.append_assoc, front]

/-! ## The runs that wait, the last one first -/

/-- Merges the last two runs, or the two before the last if the third is shorter than the last. -/
def mergeLast (threshold : Nat) : List (List α) → List (List α) × Nat
  | x :: y :: z :: rest =>
    if z.length < x.length then
      let merged := mergeRuns lt threshold z y
      (x :: merged.1 :: rest, merged.2)
    else
      let merged := mergeRuns lt threshold y x
      (merged.1 :: z :: rest, merged.2)
  | [x, y] =>
    let merged := mergeRuns lt threshold y x
    ([merged.1], merged.2)
  | waiting => (waiting, threshold)

/-- Whether a run waits that is not longer than the one after it, or than the two after it together. -/
def overdue : List (List α) → Bool
  | x :: y :: z :: w :: _ =>
    y.length ≤ x.length || z.length ≤ y.length + x.length || w.length ≤ z.length + y.length
  | [x, y, z] => y.length ≤ x.length || z.length ≤ y.length + x.length
  | [x, y] => y.length ≤ x.length
  | _ => false

theorem length_mergeLast_lt (threshold : Nat) {waiting : List (List α)} (h : 1 < waiting.length) :
    (mergeLast lt threshold waiting).1.length < waiting.length := by
  fun_cases mergeLast lt threshold waiting with
  | case1 => simp
  | case2 => simp
  | case3 => simp
  | case4 _ three two =>
    match waiting with
    | [x, y] => exact absurd rfl (two x y)
    | x :: y :: z :: rest => exact absurd rfl (three x y z rest)

theorem perm_mergeLast (threshold : Nat) (waiting : List (List α)) :
    (mergeLast lt threshold waiting).1.flatten.Perm waiting.flatten := by
  fun_cases mergeLast lt threshold waiting with
  | case1 x y z rest =>
    refine .append_left x ?_
    have joined : (mergeRuns lt threshold z y).1.Perm (y ++ z) := (perm_mergeRuns ..).trans List.perm_append_comm
    exact (joined.append_right rest.flatten).trans (.of_eq (List.append_assoc ..))
  | case2 x y z rest =>
    have joined : (mergeRuns lt threshold y x).1.Perm (x ++ y) := (perm_mergeRuns ..).trans List.perm_append_comm
    exact (joined.append_right (z :: rest).flatten).trans (.of_eq (List.append_assoc ..))
  | case3 x y =>
    have joined : (mergeRuns lt threshold y x).1.Perm (x ++ y) := (perm_mergeRuns ..).trans List.perm_append_comm
    exact (joined.append_right []).trans (.of_eq (List.append_assoc ..))
  | case4 => exact .refl _

/-- Merges while a run is overdue, or until one is left. -/
def settle (all : Bool) (threshold : Nat) (waiting : List (List α)) : List (List α) × Nat :=
  if 1 < waiting.length ∧ (all || overdue waiting) then
    settle all (mergeLast lt threshold waiting).2 (mergeLast lt threshold waiting).1
  else (waiting, threshold)
termination_by waiting.length
decreasing_by exact length_mergeLast_lt lt threshold (by omega)

theorem perm_settle (all : Bool) (threshold : Nat) (waiting : List (List α)) :
    (settle lt all threshold waiting).1.flatten.Perm waiting.flatten := by
  fun_induction settle lt all threshold waiting with
  | case1 threshold waiting _ ih => exact ih.trans (perm_mergeLast lt threshold waiting)
  | case2 => exact .refl _

/-- The wins in a row that it takes to gallop, at first. -/
def firstThreshold : Nat := 7

/-- Takes runs in, one after another. -/
def settleAll (threshold : Nat) (waiting : List (List α)) : List (List α) → List (List α) × Nat
  | [] => settle lt true threshold waiting
  | run :: later =>
    let settled := settle lt false threshold (run :: waiting)
    settleAll settled.2 settled.1 later

theorem perm_settleAll (threshold : Nat) (waiting later : List (List α)) :
    (settleAll lt threshold waiting later).1.flatten.Perm (waiting.flatten ++ later.flatten) := by
  induction later generalizing threshold waiting with
  | nil => exact (perm_settle ..).trans (.of_eq (List.append_nil _).symm)
  | cons run later ih =>
    refine (ih _ _).trans (((perm_settle ..).append_right _).trans ?_)
    rw [List.flatten_cons, List.flatten_cons, List.append_assoc]
    exact List.perm_append_comm_assoc run waiting.flatten later.flatten

/-- The elements in ascending order, as far as they can be compared. -/
def sort (xs : List α) : List α :=
  (settleAll lt firstThreshold [] (runs lt (runSize xs.length 0) xs)).1.flatten

theorem perm_sort (xs : List α) : (sort lt xs).Perm xs := (perm_settleAll ..).trans (perm_runs ..)

end PacketStack.RunSort

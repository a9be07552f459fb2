/-
  A transform only moves and drops positions.

  A transform does not look at the characters of a value (`run_map`), so what it does to the places
  0, 1, 2, … of a value is all that it does: it gives the characters that stand at its `positions`,
  in this order (`apply_at_positions`).  No call puts a place twice (`run_subperm`), and all that is
  lost is what the calls of `dropFront` drop (`length_run`).  So a transform that drops nothing can
  be undone (`apply_injective`).

  An exchange and a rotation divide by the length of the list, and an exchange looks up two places.
  `attempt?` makes these steps one by one and has no result when one of them fails; none ever does
  (`attempt?_eq`).
-/
import Mathlib.Data.List.Perm.Subperm
import StreamResolver.Cipher.Transform
import StreamResolver.Proofs.Cipher.Operations

namespace StreamResolver.Cipher

variable {α β : Type}

/-! ## Steps that can fail -/

namespace Operation

/-- The remainder of an offset; by zero there is none. -/
def remainder? (offset : Int) (length : Nat) : Option Nat :=
  if length = 0 then none else some (offset % length).toNat

/-- An operation step by step; `none` when a division or a look-up has no result. -/
def attempt? : Operation → Int → List α → Option (List α)
  | .reverse, _, s => some s.reverse
  | .dropPrefix, n, s => some (dropFront n s)
  | .swapAtOffset, n, s =>
    if s.isEmpty then some s
    else do
      let i ← remainder? n s.length
      let y ← s[i]?
      let x ← s[0]?
      return (s.set 0 y).set i x
  | .rotateLeft, n, s =>
    if s.isEmpty then some s
    else do
      let i ← remainder? n s.length
      return s.drop i ++ s.take i

theorem remainder?_eq (offset : Int) {length : Nat} (h : length ≠ 0) :
    remainder? offset length = some (wrap offset length) := if_neg h

/-- **No step of an operation fails**, on the empty list neither. -/
theorem attempt?_eq (op : Operation) (n : Int) (s : List α) :
    op.attempt? n s = some (op.apply n s) := by
  rcases s with _ | ⟨x, rest⟩
  · cases op with
    | dropPrefix => rfl
    | reverse | swapAtOffset | rotateLeft => rw [apply_nil]; rfl
  · have hlength : (x :: rest).length ≠ 0 := by simp
    cases op with
    | reverse | dropPrefix => rfl
    | swapAtOffset =>
      have hlt := wrap_lt n hlength
      rw [attempt?, if_neg (by simp), remainder?_eq n hlength, Option.bind_eq_bind,
        Option.bind_some, List.getElem?_eq_getElem hlt]
      show some _ = some (swapFirst _ _)
      rw [swapFirst_eq_swap, List.swap_eq_of_lt (by simp) hlt]
      rfl
    | rotateLeft =>
      rw [attempt?, if_neg (by simp), remainder?_eq n hlength]
      rfl

/-! ## What an operation keeps -/

/-- No operation puts an element twice. -/
theorem apply_subperm (op : Operation) (n : Int) (s : List α) : (op.apply n s).Subperm s := by
  by_cases hop : op = .dropPrefix
  · subst hop
    show (dropFront n s).Subperm s
    unfold dropFront
    split
    · exact (List.drop_sublist _ s).subperm
    · exact (List.drop_sublist _ s).subperm
  · exact (apply_perm hop n s).subperm

theorem length_dropFront {n : Int} (h : 0 ≤ n) (s : List α) :
    (dropFront n s).length = s.length - n.toNat := by
  rw [dropFront, if_neg (by omega), List.length_drop]

end Operation

/-! ## One call -/

namespace Transform

variable (table : OperationTable) (i : Instruction)

theorem step_map (f : α → β) (s : List α) : step table (s.map f) i = (step table s i).map f := by
  unfold step
  split
  · rfl
  · exact Operation.apply_map _ _ f s

theorem step_subperm (s : List α) : (step table s i).Subperm s := by
  unfold step
  split
  · exact List.Subperm.refl s
  · exact Operation.apply_subperm _ _ s

/-- A call of an unknown name does nothing. -/
theorem step_eq (s : List α) :
    step table s i = if table.has i.mnemonic then step table s i else s := by
  unfold step Keyed.has
  cases table.get? i.mnemonic with
  | none => rfl
  | some op => rfl

theorem length_step_of_drop {i : Instruction} (h : table.get? i.mnemonic = some .dropPrefix)
    (harg : 0 ≤ i.argument) (s : List α) :
    (step table s i).length = s.length - i.argument.toNat := by
  rw [step, h]
  exact Operation.length_dropFront harg s

/-- No other call changes the length. -/
theorem length_step {i : Instruction} (h : table.get? i.mnemonic ≠ some .dropPrefix)
    (s : List α) : (step table s i).length = s.length := by
  unfold step
  split
  · rfl
  · next op hop =>
    refine Operation.length_apply op _ s ?_
    rintro rfl
    exact h hop

/-- A call, step by step. -/
def step? (s : List α) : Option (List α) :=
  match table.get? i.mnemonic with
  | none => some s
  | some op => op.attempt? i.argument s

theorem step?_eq (s : List α) : step? table i s = some (step table s i) := by
  unfold step? step
  cases table.get? i.mnemonic with
  | none => rfl
  | some op => exact op.attempt?_eq i.argument s

/-! ## All calls -/

variable (t : Transform)

theorem run_cons (is : List Instruction) (s : List α) :
    run ⟨table, i :: is⟩ s = run ⟨table, is⟩ (step table s i) := rfl

/-- **A transform does not look at the elements.** -/
theorem run_map (f : α → β) (s : List α) : t.run (s.map f) = (t.run s).map f := by
  obtain ⟨table, is⟩ := t
  induction is generalizing s with
  | nil => rfl
  | cons i is ih => rw [run_cons, run_cons, step_map, ih]

/-- **No element is put twice.** -/
theorem run_subperm (s : List α) : (t.run s).Subperm s := by
  obtain ⟨table, is⟩ := t
  induction is generalizing s with
  | nil => exact List.Subperm.refl s
  | cons i is ih => exact (ih (step table s i)).trans (step_subperm table i s)

/-- The calls that drop characters. -/
def drops : List Instruction :=
  t.instructions.filter fun i => decide (t.table.get? i.mnemonic = some .dropPrefix)

/-- How many characters there are to drop. -/
def dropped : Int := t.drops.foldr (fun i n => i.argument + n) 0

theorem dropped_nonneg {t : Transform} (h : ∀ i ∈ t.drops, 0 ≤ i.argument) : 0 ≤ t.dropped := by
  rw [dropped]
  generalize t.drops = is at h
  induction is with
  | nil => exact Int.le_refl 0
  | cons i is ih =>
    rw [List.forall_mem_cons] at h
    have hrest := ih h.2
    have harg := h.1
    rw [List.foldr_cons]
    omega

/-- **What is left** of a list, when as many elements are dropped as there are or as shall be. -/
theorem length_run (h : ∀ i ∈ t.drops, 0 ≤ i.argument) (s : List α) :
    ((t.run s).length : Int) = max 0 (s.length - t.dropped) := by
  obtain ⟨table, is⟩ := t
  induction is generalizing s with
  | nil =>
    show (s.length : Int) = max 0 (s.length - 0)
    omega
  | cons i is ih =>
    rw [run_cons]
    by_cases hdrop : table.get? i.mnemonic = some .dropPrefix
    · have hdrops : drops ⟨table, i :: is⟩ = i :: drops ⟨table, is⟩ :=
        List.filter_cons_of_pos (decide_eq_true hdrop)
      have hsum : dropped ⟨table, i :: is⟩ = i.argument + dropped ⟨table, is⟩ := by
        rw [dropped, hdrops, List.foldr_cons, dropped]
      rw [hdrops, List.forall_mem_cons] at h
      have hrest := dropped_nonneg h.2
      have harg := h.1
      rw [ih _ h.2, length_step_of_drop table hdrop harg, hsum]
      omega
    · have hdrops : drops ⟨table, i :: is⟩ = drops ⟨table, is⟩ :=
        List.filter_cons_of_neg (by simpa using hdrop)
      rw [hdrops] at h
      rw [ih _ h, length_step table hdrop, dropped, dropped, hdrops]

/-- Only the calls of known names count. -/
theorem run_filter (s : List α) :
    t.run s = (t.instructions.filter fun i => t.table.has i.mnemonic).foldl (step t.table) s := by
  rw [List.foldl_filter, run]
  exact congrArg (fun f => t.instructions.foldl f s) (funext fun s => funext fun i => step_eq _ _ s)

/-- All calls, step by step. -/
def run? (s : List α) : Option (List α) := t.instructions.foldlM (fun s i => step? t.table i s) s

theorem run?_eq (s : List α) : t.run? s = some (t.run s) := by
  obtain ⟨table, is⟩ := t
  induction is generalizing s with
  | nil => rfl
  | cons i is ih =>
    rw [run?, List.foldlM_cons, step?_eq]
    exact ih (step table s i)

/-! ## Positions -/

/-- The places of a value of length `n` whose characters a transform gives, in order. -/
def positions (n : Nat) : List Nat := t.run (List.range n)

/-- A list is what stands at its places. -/
theorem map_some_eq (s : List α) : s.map some = (List.range s.length).map (s[·]?) := by
  refine List.ext_getElem (by simp) fun j hj hj' => ?_
  rw [List.length_map] at hj
  simp [List.getElem?_eq_getElem hj]

/-- **The characters at the positions** are what a transform gives. -/
theorem apply_at_positions (v : String) :
    (t.apply v).toList.map some = (t.positions v.length).map (v.toList[·]?) := by
  rw [apply, String.toList_ofList, ← run_map, map_some_eq, run_map, String.length_toList]
  rfl

/-- Without a drop the positions are all places, in some order. -/
theorem positions_perm (h : t.drops = []) (n : Nat) : (t.positions n).Perm (List.range n) := by
  have hdropped : t.dropped = 0 := by
    rw [dropped, h]
    rfl
  have hlength := t.length_run (by rw [h]; simp) (List.range n)
  rw [hdropped] at hlength
  refine (t.run_subperm (List.range n)).perm_of_length_le ?_
  omega

/-- **Without a drop a transform can be undone.** -/
theorem apply_injective (h : t.drops = []) : Function.Injective t.apply := by
  intro v w heq
  have hsame : (t.positions v.length).map (v.toList[·]?) =
      (t.positions w.length).map (w.toList[·]?) := by
    rw [← apply_at_positions, ← apply_at_positions, heq]
  have hlength : v.length = w.length := by
    have hlengths := congrArg List.length hsame
    rw [List.length_map, List.length_map, (t.positions_perm h _).length_eq,
      (t.positions_perm h _).length_eq, List.length_range, List.length_range] at hlengths
    exact hlengths
  rw [hlength] at hsame
  refine String.toList_inj.mp (List.ext_getElem? fun j => ?_)
  by_cases hj : j < w.length
  · have hmem : j ∈ t.positions w.length :=
      (t.positions_perm h _).mem_iff.mpr (List.mem_range.mpr hj)
    exact List.map_inj_left.mp hsame j hmem
  · rw [← String.length_toList] at hj hlength
    rw [← String.length_toList (s := w)] at hlength
    rw [List.getElem?_eq_none (by omega), List.getElem?_eq_none (by omega)]

/-- **A transform only moves and drops positions.**  There are positions, the same ones for all
    values of a length and no position twice, at which the characters of the result stand; as many
    are missing as there are characters to drop, so a transform without drops gives all of them
    and can be undone.  Calls of unknown names do not count, and no step of a call fails. -/
theorem moves_and_drops (hargs : ∀ i ∈ t.instructions, 0 ≤ i.argument) :
    (∀ n : Nat, ∃ p : List Nat, p.Nodup ∧ (∀ i ∈ p, i < n) ∧
      (p.length : Int) = max 0 (n - t.dropped) ∧ (t.drops = [] → p.Perm (List.range n)) ∧
      ∀ v : String, v.length = n → (t.apply v).toList.map some = p.map (v.toList[·]?)) ∧
    (t.drops = [] → Function.Injective t.apply) ∧
    (∀ is : List Instruction, (is.filter fun i => t.table.has i.mnemonic) =
        (t.instructions.filter fun i => t.table.has i.mnemonic) →
      ∀ v, Transform.apply ⟨t.table, is⟩ v = t.apply v) ∧
    ∀ v : String, t.run? v.toList = some (t.apply v).toList := by
  have hdrops : ∀ i ∈ t.drops, 0 ≤ i.argument := fun i hi => hargs i (List.mem_of_mem_filter hi)
  refine ⟨fun n => ⟨t.positions n, ?nodup, ?below, ?length, fun h => t.positions_perm h n, ?read⟩,
    t.apply_injective, ?known, ?steps⟩
  case nodup =>
    obtain ⟨q, hq, hsub⟩ := t.run_subperm (List.range n)
    exact hq.nodup_iff.mp (hsub.nodup List.nodup_range)
  case below => exact fun i hi => List.mem_range.mp ((t.run_subperm (List.range n)).subset hi)
  case length =>
    have hlength := t.length_run hdrops (List.range n)
    rw [List.length_range] at hlength
    exact hlength
  case read =>
    rintro v rfl
    exact t.apply_at_positions v
  case known =>
    intro is his v
    rw [apply, apply, run_filter, his, t.run_filter]
  case steps =>
    intro v
    rw [run?_eq, apply, String.toList_ofList]

/-- A transform with every operation, with a call of an unknown name and with two drops. -/
def scramble : Transform where
  table := [("sw", .swapAtOffset), ("dr", .dropPrefix), ("rv", .reverse), ("ro", .rotateLeft)]
  instructions := [⟨"sw", 8⟩, ⟨"zz", 1⟩, ⟨"dr", 1⟩, ⟨"rv", 0⟩, ⟨"ro", 7⟩, ⟨"dr", 2⟩]

/-- Three of six characters are left, and the call of the unknown name can be left out. -/
theorem moves_and_drops_scramble : (∀ i ∈ scramble.instructions, 0 ≤ i.argument) ∧
    (∃ p : List Nat, p.Nodup ∧ (∀ i ∈ p, i < 6) ∧ (p.length : Int) = 3 ∧
      ∀ v : String, v.length = 6 → (scramble.apply v).toList.map some = p.map (v.toList[·]?)) ∧
    ∀ v, Transform.apply ⟨scramble.table, scramble.instructions.eraseIdx 1⟩ v =
      scramble.apply v := by
  have hargs : ∀ i ∈ scramble.instructions, 0 ≤ i.argument := by decide
  obtain ⟨hpositions, -, hknown, -⟩ := moves_and_drops scramble hargs
  obtain ⟨p, hnodup, hbelow, hlength, -, hread⟩ := hpositions 6
  exact ⟨hargs, ⟨p, hnodup, hbelow, hlength.trans (by decide), hread⟩, hknown _ (by decide)⟩

end Transform

end StreamResolver.Cipher

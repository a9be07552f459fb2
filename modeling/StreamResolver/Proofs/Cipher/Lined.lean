/-
  Who stands in line to begin.

  A caller that has lined up and has not begun stands in the queue, and only once (`Lined`).  So
  those who are still to begin can be told in the order in which they will (`lined`), each with its
  call.

  The crux is that a turn is only lined up for somebody who has begun or who is new, and that nobody
  who has begun comes back to the start.
-/
import StreamResolver.Proofs.Cipher.CallerWise
import StreamResolver.Proofs.Cipher.Waiting

namespace StreamResolver.Cipher

/-- Whether a caller is still to begin: it has not started, and it is not to be cancelled. -/
def Caller.toBegin (c : Caller) : Bool :=
  match c.stage, c.cancelled with
  | .unstarted, false => true
  | _, _ => false

theorem Caller.toBegin_iff {c : Caller} : c.toBegin = true ↔ c = { call := c.call } := by
  obtain ⟨call, stage, cancelled⟩ := c
  rcases stage with _ | _ | _ | _ | _ <;> cases cancelled <;> simp [toBegin]

namespace EventLoop

variable {σ : Type} {settings : Settings} {f : Fetcher σ} {l l' : EventLoop σ}

/-- The caller that is to begin on a turn, with its call. -/
def beginner? (l : EventLoop σ) : Turn → Option (Nat × Call)
  | .caller i =>
    match l.callers[i]? with
    | some c => if c.toBegin then some (i, c.call) else none
    | none => none
  | _ => none

/-- Those who are to begin, in the order of their turns. -/
def lined (l : EventLoop σ) : List (Nat × Call) := l.queue.filterMap l.beginner?

theorem beginner?_eq_some {t : Turn} {i : Nat} {call : Call} :
    l.beginner? t = some (i, call) ↔ t = .caller i ∧ l.callers[i]? = some { call } := by
  constructor
  · intro h
    unfold beginner? at h
    split at h
    · next j =>
      split at h
      · next c hc =>
        split at h
        · next hbegin =>
          simp only [Option.some.injEq, Prod.mk.injEq] at h
          obtain ⟨rfl, rfl⟩ := h
          exact ⟨rfl, by rw [hc, Caller.toBegin_iff.mp hbegin]⟩
        · simp at h
      · simp at h
    · simp at h
  · rintro ⟨rfl, hc⟩
    simp [beginner?, hc, Caller.toBegin]

theorem mem_lined {i : Nat} {call : Call} :
    (i, call) ∈ l.lined ↔ .caller i ∈ l.queue ∧ l.callers[i]? = some { call } := by
  simp only [lined, List.mem_filterMap, beginner?_eq_some]
  constructor
  · rintro ⟨t, ht, rfl, hc⟩
    exact ⟨ht, hc⟩
  · rintro ⟨ht, hc⟩
    exact ⟨_, ht, rfl, hc⟩

/-- Everybody who is to begin stands in line once, and all turns are turns of somebody. -/
structure Lined (l : EventLoop σ) : Prop where
  once : l.queue.Pairwise fun t t' => t = t' → l.beginner? t = none
  callers : ∀ i, .caller i ∈ l.queue → i < l.callers.length
  settles : ∀ b, .settle b ∈ l.queue → b < l.builds.length

theorem lined_fresh (world : σ) : Lined (fresh world) where
  once := .nil
  callers := by simp [fresh]
  settles := by simp [fresh]

namespace Lined

/-- The line is in order as long as those who are behind in it have begun or come for the first
    time, and nobody comes back to the start. -/
theorem go (h : Lined l) (ts ts' : List Turn) (hqueue : l'.queue = ts ++ ts')
    (hold : ts.Sublist l.queue)
    (hstay : ∀ i c, l'.callers[i]? = some c → c.toBegin = true → i < l.callers.length →
      l.callers[i]? = some c)
    (hnew : ts'.Pairwise fun t t' => t = t' → l'.beginner? t = none)
    (hfirst : ∀ t ∈ ts', t ∈ ts → l'.beginner? t = none)
    (hcallers : l.callers.length ≤ l'.callers.length)
    (hbuilds : l.builds.length ≤ l'.builds.length)
    (hcaller : ∀ i, .caller i ∈ ts' → i < l'.callers.length)
    (hsettle : ∀ b, .settle b ∈ ts' → b < l'.builds.length) : Lined l' where
  once := by
    rw [hqueue, List.pairwise_append]
    refine ⟨?_, hnew, ?_⟩
    · refine (h.once.sublist hold).imp_of_mem fun {t t'} ht _ hnone heq => ?_
      rcases hsome : l'.beginner? t with _ | ⟨i, call⟩
      · rfl
      · -- it was to begin before as well
        obtain ⟨rfl, hc⟩ := beginner?_eq_some.mp hsome
        have hlt := h.callers i (hold.subset ht)
        have hc' := hstay i _ hc rfl hlt
        have hold' := hnone heq
        rw [beginner?_eq_some.mpr ⟨rfl, hc'⟩] at hold'
        simp at hold'
    · rintro t ht t' ht' rfl
      exact hfirst t ht' ht
  callers i hi := by
    rw [hqueue, List.mem_append] at hi
    rcases hi with hi | hi
    · exact Nat.lt_of_lt_of_le (h.callers i (hold.subset hi)) hcallers
    · exact hcaller i hi
  settles b hb := by
    rw [hqueue, List.mem_append] at hb
    rcases hb with hb | hb
    · exact Nat.lt_of_lt_of_le (h.settles b (hold.subset hb)) hbuilds
    · exact hsettle b hb

/-- A turn is lined up that nobody begins on. -/
theorem behind (h : Lined l) (ts ts' : List Turn) (hqueue : l'.queue = ts ++ ts')
    (hold : ts.Sublist l.queue)
    (hstay : ∀ i c, l'.callers[i]? = some c → c.toBegin = true → i < l.callers.length →
      l.callers[i]? = some c)
    (hbegun : ∀ t ∈ ts', l'.beginner? t = none)
    (hcallers : l.callers.length ≤ l'.callers.length)
    (hbuilds : l.builds.length ≤ l'.builds.length)
    (hcaller : ∀ i, .caller i ∈ ts' → i < l'.callers.length)
    (hsettle : ∀ b, .settle b ∈ ts' → b < l'.builds.length) : Lined l' :=
  h.go ts ts' hqueue hold hstay
    (List.Pairwise.imp_of_mem (fun ht _ _ _ => hbegun _ ht)
      (List.pairwise_of_forall (R := fun _ _ => True) fun _ _ => trivial))
    (fun t ht _ => hbegun t ht) hcallers hbuilds hcaller hsettle

/-- A caller that is changed and has begun then is nobody who is to begin. -/
theorem modify_stays {cs : List Caller} {i j : Nat} {g : Caller → Caller} {c : Caller}
    (hg : ∀ c, (g c).toBegin = false) (hc : (cs.modify i g)[j]? = some c)
    (hbegin : c.toBegin = true) : cs[j]? = some c := by
  rw [List.getElem?_modify] at hc
  obtain ⟨c', hc', rfl⟩ := Option.map_eq_some_iff.mp hc
  split at hbegin
  · rw [hg c'] at hbegin
    simp at hbegin
  · next hij => simp [hij, hc']

theorem modifyCaller (h : Lined l) (i : Nat) {g : Caller → Caller}
    (hg : ∀ c, (g c).toBegin = false) :
    Lined { l with callers := l.callers.modify i g } :=
  h.behind l.queue [] (by simp) (List.Sublist.refl _)
    (fun _ _ hc hbegin _ => modify_stays hg hc hbegin) (by simp) (by simp) (Nat.le_refl _)
    (by simp) (by simp)

theorem tell (h : Lined l) {i : Nat} (hi : i < l.callers.length) (d : Demand)
    (o : Except Failure Transform) : Lined (l.tell i d o) := by
  have hg : ∀ c : Caller, ({ c with stage := .told d o } : Caller).toBegin = false := fun _ => rfl
  refine h.behind l.queue [.caller i] rfl (List.Sublist.refl _)
    (fun _ _ hc hbegin _ => modify_stays hg hc hbegin) ?_ ?_ (Nat.le_refl _) ?_ (by simp)
  · intro t ht
    rw [List.mem_singleton.mp ht]
    rcases hsome : (l.tell i d o).beginner? (.caller i) with _ | ⟨j, call⟩
    · rfl
    · obtain ⟨hji, hc⟩ := beginner?_eq_some.mp hsome
      rw [Turn.caller.injEq] at hji
      subst hji
      simp only [EventLoop.tell, enqueue, setCaller, List.getElem?_modify] at hc
      obtain ⟨c, -, hc'⟩ := Option.map_eq_some_iff.mp hc
      simp at hc'
  · simp [EventLoop.tell, enqueue, setCaller]
  · intro j hj
    simp only [List.mem_singleton, Turn.caller.injEq] at hj
    simpa [EventLoop.tell, enqueue, setCaller, hj] using hi

theorem waitForBuild (h : Lined l) (i : Nat) (d : Demand) : Lined (l.waitForBuild i d) := by
  rcases hcur : l.current with _ | n
  · rw [waitForBuild_fresh hcur]
    have hg : ∀ c : Caller,
        ({ c with stage := .waiting l.builds.length d } : Caller).toBegin = false := fun _ => rfl
    exact h.behind l.queue [.build l.builds.length] rfl (List.Sublist.refl _)
      (fun _ _ hc hbegin _ => modify_stays hg hc hbegin) (by simp [beginner?])
      (by simp [setCaller]) (by simp [setCaller]) (by simp) (by simp)
  · rw [waitForBuild_current hcur]
    have hg : ∀ c : Caller, ({ c with stage := .waiting n d } : Caller).toBegin = false :=
      fun _ => rfl
    exact h.behind l.queue [] (by simp [setCaller]) (List.Sublist.refl _)
      (fun _ _ hc hbegin _ => modify_stays hg hc hbegin) (by simp)
      (by simp [setCaller]) (by simp [setCaller]) (by simp) (by simp)

/-- A turn leaves the queue. -/
theorem pop (h : Lined l) {t : Turn} {rest : List Turn} (hq : l.queue = t :: rest) :
    Lined { l with queue := rest } :=
  h.behind rest [] (by simp) (by rw [hq]; exact List.sublist_cons_self _ _)
    (fun _ _ hc _ _ => hc) (by simp) (Nat.le_refl _) (Nat.le_refl _) (by simp) (by simp)

theorem callerTurn (h : Lined l) (hshares : ∀ c ∈ l.callers, c.Shares) (i : Nat) :
    Lined (l.callerTurn settings f i) := by
  refine callerTurn_rule f hshares ?_ ?_ ?_
  · exact fun _ => h
  · exact fun _ _ _ => h.modifyCaller i fun _ => rfl
  · exact fun _ d _ _ _ _ => h.waitForBuild i d

theorem tellWaiter (h : Lined l) (i : Nat) (o : Except Failure Transform) (j : Nat) :
    Lined (l.tellWaiter i o j) := by
  rcases hc : l.callers[j]? with _ | c
  · simpa [EventLoop.tellWaiter, callerStage?, hc] using h
  · unfold EventLoop.tellWaiter
    split
    · split
      · exact h.tell (List.getElem?_eq_some_iff.mp hc).1 _ o
      · exact h
    · exact h

theorem settleTurn (h : Lined l) (i : Nat) : Lined (l.settleTurn i) := by
  unfold EventLoop.settleTurn
  rcases l.builds[i]? with _ | b
  · exact h
  dsimp only
  rcases b.outcome? with _ | o
  · exact h
  · exact List.foldlRecOn b.waiters (EventLoop.tellWaiter i o) (motive := Lined)
      { h with once := h.once } fun _ h j _ => h.tellWaiter i o j

theorem buildTurn (h : Lined l) {i : Nat} {b : SharedBuild} (hb : l.builds[i]? = some b)
    (hturn : BuildTurn settings f i l b l') : Lined l' := by
  have hi := (List.getElem?_eq_some_iff.mp hb).1
  obtain ⟨stage, t, hcallers, hbuilds, hqueue, hgoes, -⟩ := hturn.frame
  have ht : t = .build i ∨ t = .settle i := hgoes.imp And.right And.right
  refine h.behind l.queue [t] hqueue (List.Sublist.refl _)
    (fun j c hc _ _ => by rw [← hcallers]; exact hc) ?_
    (Nat.le_of_eq (by rw [hcallers])) (Nat.le_of_eq (by rw [hbuilds, List.length_modify]))
    ?_ ?_
  · intro t' ht'
    rw [List.mem_singleton.mp ht']
    rcases ht with rfl | rfl <;> rfl
  · intro j hj
    rw [List.mem_singleton] at hj
    rcases ht with rfl | rfl <;> simp at hj
  · intro j hj
    rw [List.mem_singleton] at hj
    rw [hbuilds, List.length_modify]
    rcases ht with rfl | rfl
    · simp at hj
    · rw [Turn.settle.injEq] at hj
      exact hj ▸ hi

/-- Whoever comes changes nobody who is there. -/
theorem newCaller_stays {cs : List Caller} {call : Call} {i : Nat} {c : Caller}
    (hc : (cs ++ [({ call } : Caller)])[i]? = some c) (hlt : i < cs.length) : cs[i]? = some c := by
  rwa [List.getElem?_append_left hlt] at hc

/-- Whoever comes is the last in line. -/
theorem start (h : Lined l) (call : Call) : Lined (l.start call) := by
  refine h.go l.queue [.caller l.callers.length] rfl (List.Sublist.refl _)
    (fun _ _ hc _ hlt => newCaller_stays hc hlt)
    (List.pairwise_singleton _ _) ?_ (by simp [EventLoop.start, enqueue]) (Nat.le_refl _)
    (by simp [EventLoop.start, enqueue]) (by simp)
  -- there was no turn of it before
  intro t ht hmem
  rw [List.mem_singleton.mp ht] at hmem
  exact absurd (h.callers _ hmem) (Nat.lt_irrefl _)

theorem startAtOnce (h : Lined l) {call : Call} (hshares : ∀ c ∈ l.callers, c.Shares)
    (hcall : call ≠ .script) : Lined (l.startAtOnce settings f call) := by
  have hnew : Lined { l with callers := l.callers ++ [({ call } : Caller)] } :=
    h.behind l.queue [] (by simp) (List.Sublist.refl _)
      (fun _ _ hc _ hlt => newCaller_stays hc hlt) (by simp) (by simp) (Nat.le_refl _) (by simp)
      (by simp)
  refine hnew.callerTurn ?_ _
  intro c hc
  rcases List.mem_append.mp hc with hc | hc
  · exact hshares c hc
  · rw [List.mem_singleton.mp hc]
    exact ⟨hcall, by simp⟩

theorem cancel (h : Lined l) (i : Nat) : Lined (l.cancel i) := by
  have hmarked : ∀ c : Caller, ({ c with cancelled := true } : Caller).toBegin = false := by
    rintro ⟨call, stage, cancelled⟩
    cases stage <;> rfl
  rcases hc : l.callers[i]? with _ | c
  · simpa [EventLoop.cancel, callerStage?, hc] using h
  · unfold EventLoop.cancel
    split
    · exact h
    · exact h
    · exact h.tell (List.getElem?_eq_some_iff.mp hc).1 _ _
    · exact h.modifyCaller i hmarked

theorem reset (h : Lined l) : Lined l.reset := by
  obtain ⟨hcallers, hqueue, -⟩ := reset_frame l
  refine h.behind l.queue [] (by simp [hqueue]) (List.Sublist.refl _)
    (fun i c hc _ _ => by rw [← hcallers]; exact hc) (by simp)
    (Nat.le_of_eq (by rw [hcallers])) (Nat.le_of_eq (length_reset l).symm) (by simp) (by simp)

/-- **One deed** keeps the line in order. -/
theorem perform (h : Lined l) (horder : InOrder settings l) {d : Deed σ} (hd : d.Shares) :
    Lined (EventLoop.perform settings f l d) := by
  cases d with
  | start call => exact h.start call
  | startAtOnce call => exact h.startAtOnce horder.callers_share hd
  | cancel i => exact h.cancel i
  | reset => exact h.reset
  | change g => exact { h with once := h.once }
  | turn =>
    rcases hq : l.queue with _ | ⟨t, rest⟩
    · rw [perform_turn_nil hq]
      exact h
    rw [perform_turn_cons hq]
    cases t with
    | caller i => exact (h.pop hq).callerTurn horder.callers_share i
    | build i =>
      obtain ⟨b, hb, ho⟩ := horder.pending_of_turn hq
      exact (h.pop hq).buildTurn hb
        (buildTurn_cases settings f (l := { l with queue := rest }) hb ho)
    | settle i => exact (h.pop hq).settleTurn i

/-- Each number stands in line once. -/
theorem nodup (h : Lined l) : (l.lined.map Prod.fst).Nodup := by
  rw [List.nodup_iff_pairwise_ne, List.pairwise_map, lined, List.pairwise_filterMap]
  refine h.once.imp fun {t t'} hnone => ?_
  rintro ⟨i, call⟩ hi ⟨i', call'⟩ hi' heq
  obtain ⟨rfl, hc⟩ := beginner?_eq_some.mp hi
  obtain ⟨rfl, -⟩ := beginner?_eq_some.mp hi'
  have hold := hnone (by rw [show i = i' from heq])
  rw [hi] at hold
  simp at hold

end Lined

/-- **Every run** keeps the line in order. -/
theorem run_lined {ds : List (Deed σ)} (hds : ∀ d ∈ ds, d.Shares) (horder : InOrder settings l)
    (h : Lined l) : Lined (run settings f ds l) :=
  (run_invariant (P := fun l => InOrder settings l ∧ Lined l)
    (fun _ _ hl hd => ⟨hl.1.perform hd, hl.2.perform hl.1 hd⟩) hds ⟨horder, h⟩).2

end EventLoop

end StreamResolver.Cipher

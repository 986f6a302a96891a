import BlockScript.Proofs.Matching

/-!
# What a search finds

Every match that a search finds is a way through the pattern (`takes_of_search?`, `takes_of_mem_findAll`), and where
there is a way through the pattern the search finds a match that begins there or before (`exists_searchFrom`).
-/

namespace BlockScript.Pattern
variable {a : Pattern} {m : Match} {s : Place} {n : Nat} {l : Option Char} {t u : Text} {advance : Bool}

/-! ### Every match is a way -/

lemma takes_of_matchAt? (h : a.matchAt? s = some m) : a.Takes s [] m.stop m.groups ∧ m.start = s := by
  obtain ⟨s', g', htak, hm⟩ := run_some a h
  cases hm
  exact ⟨htak, rfl⟩

lemma takes_of_matchSomeAt? (h : a.matchSomeAt? s = some m) : a.Takes s [] m.stop m.groups ∧ m.start = s := by
  obtain ⟨s', g', htak, hm⟩ := run_some a h
  split at hm
  · cases hm
    exact ⟨htak, rfl⟩
  · contradiction

lemma takes_of_matchAt (h : (if advance then a.matchSomeAt? else a.matchAt?) s = some m) :
    a.Takes s [] m.stop m.groups ∧ m.start = s := by
  cases advance with
  | true => exact takes_of_matchSomeAt? h
  | false => exact takes_of_matchAt? h

lemma start_of_matchAt (h : (if advance then a.matchSomeAt? else a.matchAt?) s = some m) : m.start = s :=
  (takes_of_matchAt h).2

lemma takes_of_searchFrom (h : a.searchFrom advance n l t = some m) : a.Takes m.start [] m.stop m.groups := by
  have hat : ∀ {advance : Bool} {s : Place}, (if advance then a.matchSomeAt? else a.matchAt?) s = some m →
      a.Takes m.start [] m.stop m.groups := fun hm => start_of_matchAt hm ▸ (takes_of_matchAt hm).1
  induction t generalizing advance n l with
  | nil => exact hat h
  | cons c t ih =>
    rw [searchFrom] at h
    split at h
    next m' hm' => exact hat (Option.some.inj h ▸ hm')
    · exact ih h

lemma takes_of_search? (h : a.search? t = some m) : a.Takes m.start [] m.stop m.groups := takes_of_searchFrom h

lemma takes_of_mem_findAllFrom {fuel : Nat} (h : m ∈ a.findAllFrom fuel advance s) :
    a.Takes m.start [] m.stop m.groups := by
  induction fuel generalizing advance s with
  | zero => contradiction
  | succ fuel ih =>
    rw [findAllFrom] at h
    split at h
    · contradiction
    next m' hm' =>
      rcases List.mem_cons.mp h with rfl | h
      · exact takes_of_searchFrom hm'
      · exact ih h

lemma takes_of_mem_findAll (h : m ∈ a.findAll t) : a.Takes m.start [] m.stop m.groups := takes_of_mem_findAllFrom h

lemma exists_start_of_searchFrom (h : a.searchFrom advance n l t = some m) : ∃ u, t = u ++ m.start.rest := by
  induction t generalizing advance n l with
  | nil => exact ⟨[], by rw [start_of_matchAt h]; rfl⟩
  | cons c t ih =>
    rw [searchFrom] at h
    split at h
    next m' hm' => exact ⟨[], by rw [← Option.some.inj h, start_of_matchAt hm']; rfl⟩
    obtain ⟨u, rfl⟩ := ih h
    exact ⟨c :: u, rfl⟩

/-! ### Every way is found, or one before it -/

lemma searchFrom_some (h : (if advance then a.matchSomeAt? else a.matchAt?) ⟨n, l, t⟩ = some m) :
    a.searchFrom advance n l t = some m := by
  cases t with
  | nil => rwa [searchFrom]
  | cons c t => rw [searchFrom, h]

lemma exists_matchAt {g' : Groups} {s' : Place} (h : a.Takes s [] s' g') (hmove : s.pos < s'.pos) (advance : Bool) :
    ∃ m, (if advance then a.matchSomeAt? else a.matchAt?) s = some m := by
  cases advance with
  | true => exact Option.isSome_iff_exists.mp (h.isSome_run (by rw [if_pos hmove]; rfl))
  | false => exact Option.isSome_iff_exists.mp (h.isSome_run rfl)

/-- The search goes from left to right, so it does not go past a place where there is a way through the pattern. -/
lemma exists_searchFrom {g' : Groups} {s' : Place} (h : a.Takes ⟨n + u.length, u.getLast?.or l, t⟩ [] s' g')
    (hmove : n + u.length < s'.pos) (advance : Bool) :
    ∃ m before between, u = before ++ between ∧ a.searchFrom advance n l (u ++ t) = some m
      ∧ m.start.rest = between ++ t := by
  induction u generalizing advance n l with
  | nil =>
    obtain ⟨m, hm⟩ := exists_matchAt h hmove advance
    refine ⟨m, [], [], rfl, searchFrom_some hm, ?_⟩
    rw [start_of_matchAt hm]
    rfl
  | cons c u ih =>
    cases hm : (if advance then a.matchSomeAt? else a.matchAt?) ⟨n, l, c :: (u ++ t)⟩ with
    | some m => exact ⟨m, [], c :: u, rfl, searchFrom_some hm, by rw [start_of_matchAt hm]; rfl⟩
    | none =>
      have hplc : (⟨n + (c :: u).length, (c :: u).getLast?.or l, t⟩ : Place)
          = ⟨n + 1 + u.length, u.getLast?.or (some c), t⟩ := by
        rw [List.getLast?_cons]
        cases u.getLast? <;> simp [Nat.add_comm, Nat.add_left_comm]
      rw [hplc] at h
      obtain ⟨m, before, between, rfl, hsrch, hst⟩ := ih h (by simp at hmove; omega) false
      exact ⟨m, c :: before, between, rfl, by rw [List.cons_append, searchFrom, hm, hsrch], hst⟩

end BlockScript.Pattern

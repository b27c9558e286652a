import Mathlib.Data.List.Nodup
import Raknet.Lib.Clients

/-!
# Clients that take items and start other clients

The calls of clients may take items. A client's own code may start another client for the item that
its last call took; the list of those started so far, each with who started it and for which item,
is what the clients share beside their calls.

**Theorem (`Reach.spawned`).** If no two calls take the same item then no two clients are started
for the same item; and if every item is taken after those taken before it, every client starts
others in the order of their items.

**Theorem (`Reach.passed`).** A client that never goes on to its next call without having started
another for the item it has, loses none.
-/

namespace Interleaving

variable {σ τ ε α π β ι : Type*}

/-- The code of a client starts another one only for the item that its last call took. -/
def Program.Spawns (P : Program τ α (List (ℕ × ι)) π β) (taken : τ → Option ι) : Prop :=
  ∀ i b w p t w' p' more, P.own i b w p t = some (w', p', more) →
    w' = w ∨ ∃ k, taken t = some k ∧ w' = w ++ [(i, k)] ∧ more = true

/-- No two calls take the same item, and an item comes after those that were taken before it. -/
structure System.Takes (M : System σ τ ε α) (d₀ : Config σ τ) (taken : τ → Option ι)
    (r : ι → ι → Prop) : Prop where
  distinct : ∀ d n m k, Reach M anyStep d₀ d → taken (d.thread n) = some k →
    taken (d.thread m) = some k → n = m
  later : ∀ d n a s t k m k', Reach M anyStep d₀ d →
    M.thread n a d.shared (d.thread n) = some (s, t) → taken t = some k →
    taken (d.thread m) = some k' → r k' k

/-- What is known of the clients started so far. -/
structure Spawned (taken : τ → Option ι) (r : ι → ι → Prop)
    (c : Config (σ × List (ℕ × ι)) (Client π τ)) : Prop where
  sorted : ∀ i, (((c.thread i).past ++ [(c.thread i).call]).filterMap taken).Pairwise r
  started : ∀ i, ((c.shared.2.filter (·.1 = i)).map Prod.snd).Sublist
    ((c.thread i).past.filterMap taken)
  once : (c.shared.2.map Prod.snd).Nodup

variable {M : System σ τ ε α} {P : Program τ α (List (ℕ × ι)) π β} {idle : τ}
  {taken : τ → Option ι} {r : ι → ι → Prop}
  {ok : Config (σ × List (ℕ × ι)) (Client π τ) → Action ε (α ⊕ β) → Prop}
  {c₀ c : Config (σ × List (ℕ × ι)) (Client π τ)}

theorem Program.Spawns.grows (hP : P.Spawns taken) {i : ℕ} {b : β} {w w' : List (ℕ × ι)} {p p' : π}
    {t : τ} {more : Bool} (h : P.own i b w p t = some (w', p', more)) : w <+: w' := by
  rcases hP i b w p t w' p' more h with rfl | ⟨k, -, rfl, -⟩
  · exact List.prefix_rfl
  · exact List.prefix_append _ _

theorem Client.exists_taken (idle : τ) {t : Client π τ} {k : ι}
    (h : k ∈ t.past.filterMap taken) :
    ∃ n, n < t.past.length ∧ taken (t.nth idle n) = some k := by
  obtain ⟨u, hu, hk⟩ := List.mem_filterMap.mp h
  obtain ⟨n, hn, rfl⟩ := Client.exists_nth idle hu
  exact ⟨n, hn, hk⟩

/-- A client was started for an item that an earlier call of its starter took. -/
theorem Spawned.exists_call (h : Spawned taken r c) (idle : τ) {i : ℕ} {k : ι}
    (hk : (i, k) ∈ c.shared.2) :
    ∃ n, n < (c.thread i).past.length ∧ taken ((c.thread i).nth idle n) = some k := by
  have hmem : k ∈ (c.shared.2.filter (·.1 = i)).map Prod.snd :=
    List.mem_map.mpr ⟨(i, k), List.mem_filter.mpr ⟨hk, by simp⟩, rfl⟩
  exact Client.exists_taken idle ((h.started i).subset hmem)

/-- Every client starts others in the order of their items. -/
theorem Spawned.order (h : Spawned taken r c) (i : ℕ) :
    ((c.shared.2.filter (·.1 = i)).map Prod.snd).Pairwise r := by
  refine List.Pairwise.sublist (h.started i) (List.Pairwise.sublist ?_ (h.sorted i))
  exact (List.sublist_append_left _ _).filterMap _

theorem spawned_init (idle : τ) (hidle : taken idle = none) (hw : c.shared.2 = [])
    (hcall : ∀ i, (c.thread i).past = [] ∧ (c.thread i).call = idle) : Spawned taken r c := by
  refine ⟨fun i => ?_, fun i => ?_, by simp [hw]⟩
  · obtain ⟨hpast, hcall⟩ := hcall i
    simp [hpast, hcall, List.filterMap, hidle]
  · simp [hw]

theorem Spawned.call (h : Spawned taken r c) {i : ℕ} {t : τ} {s : σ × List (ℕ × ι)}
    (hw : s.2 = c.shared.2)
    (hlater : ∀ k, taken t = some k → ∀ k' ∈ (c.thread i).past.filterMap taken, r k' k) :
    Spawned taken r (c.move i (s, { c.thread i with call := t })) := by
  have hpast : ∀ j, ((c.move i (s, { c.thread i with call := t })).thread j).past =
      (c.thread j).past := by
    intro j
    rw [Config.move_thread]
    split_ifs with hj
    · rw [hj]
    · rfl
  constructor
  · intro j
    by_cases hj : j = i
    · subst hj
      rw [Config.move_thread_self]
      have hold := h.sorted j
      rw [List.filterMap_append, List.pairwise_append] at hold
      rw [List.filterMap_append]
      cases hk : taken t with
      | none => simpa [List.filterMap, hk] using hold.1
      | some k =>
        have hnew : [t].filterMap taken = [k] := by simp [List.filterMap, hk]
        rw [hnew, List.pairwise_append]
        refine ⟨hold.1, List.pairwise_singleton _ _, fun k' hk' x hx => ?_⟩
        rw [List.mem_singleton.mp hx]
        exact hlater k hk k' hk'
    · rw [Config.move_thread_of_ne _ _ hj]
      exact h.sorted j
  · intro j
    rw [hpast, Config.move_shared, hw]
    exact h.started j
  · rw [Config.move_shared, hw]
    exact h.once

theorem Spawned.own (h : Spawned taken r c) (hP : P.Spawns taken) (hidle : taken idle = none)
    {i : ℕ} {b : β} {w : List (ℕ × ι)} {p : π} {more : Bool}
    (hown : P.own i b c.shared.2 (c.thread i).place (c.thread i).call = some (w, p, more))
    (hnew : ∀ k, taken (c.thread i).call = some k → k ∉ c.shared.2.map Prod.snd) :
    Spawned taken r (c.move i ((c.shared.1, w),
      if more then ⟨p, (c.thread i).past ++ [(c.thread i).call], idle⟩
      else { c.thread i with place := p })) := by
  constructor
  · intro j
    by_cases hj : j = i
    · subst hj
      rw [Config.move_thread_self]
      cases more with
      | false => exact h.sorted j
      | true => simpa [List.filterMap, hidle] using h.sorted j
    · rw [Config.move_thread_of_ne _ _ hj]
      exact h.sorted j
  · intro j
    have hpast : ((c.thread j).past.filterMap taken).Sublist
        (((c.move i ((c.shared.1, w),
          if more then ⟨p, (c.thread i).past ++ [(c.thread i).call], idle⟩
          else { c.thread i with place := p })).thread j).past.filterMap taken) := by
      by_cases hj : j = i
      · subst hj
        rw [Config.move_thread_self]
        cases more with
        | false => exact List.Sublist.refl _
        | true => exact (List.sublist_append_left _ _).filterMap _
      · rw [Config.move_thread_of_ne _ _ hj]
    rcases hP i b _ _ _ _ _ _ hown with rfl | ⟨k, hk, rfl, rfl⟩
    · exact (h.started j).trans hpast
    · by_cases hj : j = i
      · subst hj
        have hold := (h.started j).append (List.Sublist.refl [k])
        simpa [hk, List.filterMap] using hold
      · simpa [Ne.symm hj] using (h.started j).trans hpast
  · rcases hP i b _ _ _ _ _ _ hown with rfl | ⟨k, hk, rfl, -⟩
    · exact h.once
    · rw [Config.move_shared, List.map_append]
      refine List.nodup_append.mpr ⟨h.once, List.nodup_singleton _, fun k' hk' y hy => ?_⟩
      rw [List.mem_singleton.mp hy]
      rintro rfl
      exact hnew k' hk hk'

/-- **Clients are started once for an item, and in the order of the items.** -/
theorem Reach.spawned (h : Reach (M.clients P idle) ok c₀ c) (hP : P.Spawns taken)
    (hM : M.Takes (c₀.calls idle) taken r) (hidle : taken idle = none) (h₀ : Spawned taken r c₀) :
    Spawned taken r c := by
  refine h.invariant h₀ ?_
  intro c a c' hr _ hs hi
  have hcalls := hr.calls
  have hearlier : ∀ i k, k ∈ (c.thread i).past.filterMap taken → ∃ n,
      n < (c.thread i).past.length ∧ taken ((c.calls idle).thread (Nat.pair i n)) = some k := by
    intro i k hk
    obtain ⟨n, hn, hnth⟩ := Client.exists_taken idle hk
    exact ⟨n, hn, by rwa [Config.calls_thread]⟩
  rcases System.step_cases hs with ⟨e, s, rfl, he, rfl⟩ | ⟨i, x, s, t, rfl, hx, rfl⟩
  · obtain ⟨s₁, -, rfl⟩ := Option.map_eq_some_iff.mp he
    exact ⟨hi.sorted, hi.started, hi.once⟩
  have hmine : (c.calls idle).thread (Nat.pair i (c.thread i).past.length) = (c.thread i).call := by
    rw [Config.calls_thread, Client.nth_call]
  rcases clients_cases hx with ⟨a, u, rfl, -, hcall, hw, rfl⟩ | ⟨b, w, p, more, rfl, hown, rfl, rfl⟩
  · refine hi.call hw fun k hk k' hk' => ?_
    obtain ⟨n, -, hn⟩ := hearlier i k' hk'
    refine hM.later _ (Nat.pair i (c.thread i).past.length) a s.1 u k _ k' hcalls ?_ hk hn
    rw [hmine]
    exact hcall
  · refine hi.own hP hidle hown fun k hk hmem => ?_
    -- whoever started a client for this item took it in an earlier call
    obtain ⟨⟨j, k'⟩, hj, rfl⟩ := List.mem_map.mp hmem
    obtain ⟨n, hn, hnth⟩ := hi.exists_call idle hj
    rw [← Config.calls_thread] at hnth
    have heq := hM.distinct _ _ _ _ hcalls hnth (by rw [hmine]; exact hk)
    obtain ⟨rfl, rfl⟩ := Nat.pair_eq_pair.mp heq
    exact Nat.lt_irrefl _ hn

/-- **No item is lost.** -/
theorem Reach.passed (h : Reach (M.clients P idle) ok c₀ c) (hP : P.Spawns taken)
    (h₀ : ∀ i, (c₀.thread i).past = [])
    (hpass : ∀ c i b w p k, Reach (M.clients P idle) ok c₀ c →
      P.own i b c.shared.2 (c.thread i).place (c.thread i).call = some (w, p, true) →
      taken (c.thread i).call = some k → (i, k) ∈ w) (i : ℕ) :
    ∀ k ∈ (c.thread i).past.filterMap taken, (i, k) ∈ c.shared.2 := by
  refine h.invariant (I := fun c => ∀ i, ∀ k ∈ (c.thread i).past.filterMap taken,
    (i, k) ∈ c.shared.2) (fun i => by simp [h₀ i]) ?_ i
  intro c a c' hr _ hs hi j k hk
  rcases System.step_cases hs with ⟨e, s, rfl, he, rfl⟩ | ⟨i, x, s, t, rfl, hx, rfl⟩
  · obtain ⟨s₁, -, rfl⟩ := Option.map_eq_some_iff.mp he
    exact hi j k hk
  rcases clients_cases hx with ⟨a, u, rfl, -, -, hw, rfl⟩ | ⟨b, w, p, more, rfl, hown, rfl, rfl⟩
  · rw [Config.move_shared, hw]
    rw [Config.move_thread] at hk
    split_ifs at hk with hj
    · subst hj
      exact hi j k hk
    · exact hi j k hk
  · rw [Config.move_shared]
    rw [Config.move_thread] at hk
    split_ifs at hk with hj hmore
    · subst hj hmore
      rw [List.filterMap_append, List.mem_append] at hk
      rcases hk with hk | hk
      · exact (hP.grows hown).subset (hi j k hk)
      · obtain ⟨u, hu, hku⟩ := List.mem_filterMap.mp hk
        rw [List.mem_singleton.mp hu] at hku
        exact hpass c j b w p k hr hown hku
    · subst hj
      exact (hP.grows hown).subset (hi j k hk)
    · exact (hP.grows hown).subset (hi j k hk)

end Interleaving

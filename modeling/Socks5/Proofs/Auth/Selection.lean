import Socks5.Auth.Registry

/-!
# Selecting a method

Which method is chosen for an offer, and which one is run for it. Main statements: a registry holds
only methods that were registered (`mem_of_mem_ofList`), and what is run for an offer is a method on
offer that it holds, or the one for the case that there is none (`select_cases`,
`select_ofList_cases`). From an offer in descending order the highest id is chosen (`le_select`).
-/

namespace Socks5.MethodRegistry

variable {r : MethodRegistry} {m m' : Method} {methods : List Method} {offered : List MethodId}

/-! ## What a registry holds -/

theorem mem_of_mem_insert (h : m' ∈ insert m methods) : m' = m ∨ m' ∈ methods := by
  induction methods with
  | nil => exact .inl (List.mem_singleton.1 h)
  | cons k rest ih =>
    rw [insert] at h
    by_cases hlt : m.id < k.id
    · rw [if_pos hlt] at h
      exact List.mem_cons.1 h
    · rw [if_neg hlt] at h
      by_cases heq : m.id = k.id
      · rw [if_pos heq] at h
        exact (List.mem_cons.1 h).imp_right (List.mem_cons_of_mem k)
      · rw [if_neg heq] at h
        rcases List.mem_cons.1 h with rfl | h
        · exact .inr List.mem_cons_self
        · exact (ih h).imp_right (List.mem_cons_of_mem k)

theorem mem_of_mem_register (h : m' ∈ (r.register m).methods) : m' = m ∨ m' ∈ r.methods := by
  unfold register at h
  by_cases hid : m.id = .noAcceptable
  · rw [if_pos hid] at h
    exact .inr h
  · rw [if_neg hid] at h
    exact mem_of_mem_insert h

/-- Registering methods adds none but these, and keeps the method for the case that none is
acceptable unless one of them takes its place. -/
theorem foldl_register (hmethods : ∀ m ∈ methods, m.id ≠ .noAcceptable) :
    (methods.foldl register r).fallback = r.fallback ∧
      ∀ m ∈ (methods.foldl register r).methods, m ∈ methods ∨ m ∈ r.methods := by
  induction methods generalizing r with
  | nil => exact ⟨rfl, fun m hm => .inr hm⟩
  | cons k rest ih =>
    obtain ⟨hk, hrest⟩ := List.forall_mem_cons.1 hmethods
    obtain ⟨hfallback, hmem⟩ := ih (r := r.register k) hrest
    refine ⟨hfallback.trans (fallback_register hk r), fun m hm => ?_⟩
    rcases hmem m hm with hm | hm
    · exact .inl (List.mem_cons_of_mem k hm)
    · rcases mem_of_mem_register hm with rfl | hm
      · exact .inl List.mem_cons_self
      · exact .inr hm

theorem fallback_ofList (hmethods : ∀ m ∈ methods, m.id ≠ .noAcceptable) :
    (ofList methods).fallback = .noAcceptable := (foldl_register hmethods).1

theorem mem_of_mem_ofList (hmethods : ∀ m ∈ methods, m.id ≠ .noAcceptable)
    (h : m ∈ (ofList methods).methods) : m ∈ methods := by
  rcases (foldl_register hmethods).2 m h with h | h
  · exact h
  · cases h

/-! ## What is run for an offer -/

/-- For an offer the registry runs a method that it holds and that was offered, or none of those
that were offered has a method. -/
theorem select_cases (r : MethodRegistry) (offered : List MethodId) :
    (∃ m ∈ r.methods, m.id ∈ offered ∧ r.select offered = m.id ∧
        r.resolve (r.select offered) = m) ∨
      ((∀ id ∈ offered, ¬ r.contains id) ∧ r.select offered = .noAcceptable) := by
  unfold select
  cases hfind : offered.find? r.contains with
  | none =>
    refine .inr ⟨fun id hid => ?_, rfl⟩
    exact List.find?_eq_none.1 hfind id hid
  | some id =>
    have hcontains : r.contains id = true := List.find?_some hfind
    obtain ⟨m, hm⟩ := Option.isSome_iff_exists.1 hcontains
    have hid : m.id = id := by simpa using List.find?_some hm
    refine .inl ⟨m, List.mem_of_find?_eq_some hm, hid ▸ List.mem_of_find?_eq_some hfind, ?_, ?_⟩
    · exact hid.symm
    · show (r.get? id).getD r.fallback = m
      rw [hm, Option.getD_some]

theorem contains_iff {id : MethodId} : r.contains id ↔ id ∈ r.supported := by
  simp [contains, get?, supported]

/-- From an offer in descending order, the highest id that has a method is chosen. -/
theorem le_select {id : MethodId} (hsorted : offered.Pairwise (· > ·)) (hid : id ∈ offered)
    (hmethod : r.contains id) : id ≤ r.select offered := by
  induction offered with
  | nil => cases hid
  | cons k others ih =>
    obtain ⟨hk, hothers⟩ := List.pairwise_cons.1 hsorted
    by_cases hcontains : r.contains k
    · have hselect : r.select (k :: others) = k := by simp [select, hcontains]
      rw [hselect]
      rcases List.mem_cons.1 hid with rfl | hid
      · exact UInt8.le_refl id
      · exact UInt8.le_of_lt (hk id hid)
    · have hselect : r.select (k :: others) = r.select others := by simp [select, hcontains]
      rw [hselect]
      rcases List.mem_cons.1 hid with rfl | hid
      · exact absurd hmethod hcontains
      · exact ih hothers hid

theorem resolve_noAcceptable (h : ∀ m ∈ r.methods, m.id ≠ .noAcceptable) :
    r.resolve .noAcceptable = r.fallback := by
  have hnone : r.get? .noAcceptable = none :=
    List.find?_eq_none.2 fun m hm => by simpa using h m hm
  rw [resolve, hnone, Option.getD_none]

/-- A registry of methods with ids of their own runs one of them, or gives up. -/
theorem select_ofList_cases (hmethods : ∀ m ∈ methods, m.id ≠ .noAcceptable)
    (offered : List MethodId) :
    (∃ m ∈ methods, (ofList methods).select offered = m.id ∧
        (ofList methods).resolve ((ofList methods).select offered) = m) ∨
      (ofList methods).select offered = .noAcceptable ∧
        (ofList methods).resolve ((ofList methods).select offered) = .noAcceptable := by
  rcases select_cases (ofList methods) offered with ⟨m, hm, _, hselect, hresolve⟩ | ⟨_, hselect⟩
  · exact .inl ⟨m, mem_of_mem_ofList hmethods hm, hselect, hresolve⟩
  · refine .inr ⟨hselect, ?_⟩
    rw [hselect, resolve_noAcceptable fun m hm => hmethods m (mem_of_mem_ofList hmethods hm),
      fallback_ofList hmethods]

end Socks5.MethodRegistry

import ResolvedSql.Keyed
set_option autoImplicit false

namespace ResolvedSql

namespace Keyed

variable {α : Type}

def LastEntry (es : List (String × α)) (name : String) (a : α) : Prop :=
  ∃ front back, es = front ++ (name, a) :: back ∧ name ∉ names back

theorem lastEntry_cons {e : String × α} {es : List (String × α)} {name : String} {a : α} :
    LastEntry (e :: es) name a ↔ LastEntry es name a ∨ (e = (name, a) ∧ name ∉ names es) := by
  constructor
  · rintro ⟨front, back, hes, hback⟩
    cases front with
    | nil =>
      obtain ⟨rfl, rfl⟩ := List.cons_eq_cons.1 hes
      exact .inr ⟨rfl, hback⟩
    | cons f front =>
      obtain ⟨rfl, rfl⟩ := List.cons_eq_cons.1 hes
      exact .inl ⟨front, back, rfl, hback⟩
  · rintro (⟨front, back, rfl, hback⟩ | ⟨rfl, hes⟩)
    · exact ⟨e :: front, back, rfl, hback⟩
    · exact ⟨[], es, rfl, hes⟩

theorem find?_insertAll_eq_some {m : Keyed α} {es : List (String × α)} {name : String} {a : α} :
    (m.insertAll es).find? name = some a ↔
      LastEntry es name a ∨ (name ∉ names es ∧ m.find? name = some a) := by
  induction es generalizing m with
  | nil => simp [insertAll, LastEntry, names]
  | cons e es ih =>
    have hcons : m.insertAll (e :: es) = (m.insert e.1 e.2).insertAll es := rfl
    obtain ⟨k, b⟩ := e
    rw [hcons, ih, lastEntry_cons, find?_insert]
    by_cases hk : name = k
    · subst hk
      simp [names, and_comm]
    · have hne : ¬ (k, b) = (name, a) := fun h => hk (congrArg Prod.fst h).symm
      simp [names, hk, hne]

theorem mem_of_find?_eq_some {m : Keyed α} {name : String} {a : α} (h : m.find? name = some a) :
    (name, a) ∈ m.entries := by
  obtain ⟨front, back, hentries, -⟩ := List.lookup_eq_some_iff.1 h
  rw [hentries]
  exact List.mem_append_right _ List.mem_cons_self

theorem mem_of_mem_insertAll {m : Keyed α} {es : List (String × α)} {e : String × α}
    (h : e ∈ (m.insertAll es).entries) : e ∈ es ∨ e ∈ m.entries := by
  induction es generalizing m with
  | nil => exact .inr h
  | cons d es ih =>
    rcases ih (m := m.insert d.1 d.2) h with h | h
    · exact .inl (List.mem_cons_of_mem _ h)
    · rcases List.mem_cons.1 h with rfl | h
      · exact .inl List.mem_cons_self
      · exact .inr ((List.mem_filter.1 h).1)

theorem mem_names_insert {m : Keyed α} {name other : String} {a : α} :
    other ∈ names (m.insert name a).entries ↔ other = name ∨ other ∈ names m.entries := by
  have hcons : names (m.insert name a).entries = name :: names (without name m.entries) := rfl
  rw [hcons, List.mem_cons, mem_names_without]
  grind

theorem mem_names_insertAll {m : Keyed α} {es : List (String × α)} {name : String} :
    name ∈ names (m.insertAll es).entries ↔ name ∈ names es ∨ name ∈ names m.entries := by
  induction es generalizing m with
  | nil => simp [Keyed.insertAll, names]
  | cons e es ih =>
    have hcons : m.insertAll (e :: es) = (m.insert e.1 e.2).insertAll es := rfl
    have hnames : names (e :: es) = e.1 :: names es := rfl
    rw [hcons, ih, mem_names_insert, hnames, List.mem_cons]
    grind

end Keyed

end ResolvedSql

set_option autoImplicit false

namespace ResolvedSql

def Keyed.names {α : Type} (es : List (String × α)) : List String := es.map (·.1)

structure Keyed (α : Type) where
  entries : List (String × α)
  distinct : (Keyed.names entries).Nodup

namespace Keyed

variable {α : Type}

def empty : Keyed α := ⟨[], List.nodup_nil⟩

instance : EmptyCollection (Keyed α) := ⟨empty⟩
instance : Inhabited (Keyed α) := ⟨empty⟩

def size (m : Keyed α) : Nat := m.entries.length

def isEmpty (m : Keyed α) : Bool := m.entries.isEmpty

def find? (m : Keyed α) (name : String) : Option α := m.entries.lookup name

def without (name : String) (es : List (String × α)) : List (String × α) :=
  es.filter fun e => e.1 ≠ name

theorem distinct_without {es : List (String × α)} (h : (names es).Nodup) (name : String) :
    (names (without name es)).Nodup :=
  h.sublist (List.filter_sublist.map _)

theorem mem_names_without {es : List (String × α)} {name other : String} :
    other ∈ names (without name es) ↔ other ≠ name ∧ other ∈ names es := by
  simp only [names, without, List.mem_map, List.mem_filter, decide_eq_true_eq]
  constructor
  · rintro ⟨e, ⟨he, hname⟩, rfl⟩
    exact ⟨hname, e, he, rfl⟩
  · rintro ⟨hname, e, he, rfl⟩
    exact ⟨e, ⟨he, hname⟩, rfl⟩

def erase (m : Keyed α) (name : String) : Keyed α :=
  ⟨without name m.entries, distinct_without m.distinct name⟩

def insert (m : Keyed α) (name : String) (a : α) : Keyed α where
  entries := (name, a) :: without name m.entries
  distinct := List.nodup_cons.2
    ⟨fun h => (mem_names_without.1 h).1 rfl, distinct_without m.distinct name⟩

def take (m : Keyed α) (name : String) : Option α × Keyed α := (m.find? name, m.erase name)

def insertAll (m : Keyed α) (entries : List (String × α)) : Keyed α :=
  entries.foldl (fun m e => m.insert e.1 e.2) m

theorem lookup_without (name other : String) (es : List (String × α)) :
    (without name es).lookup other = if other = name then none else es.lookup other := by
  unfold without
  induction es with
  | nil => simp
  | cons e r ih =>
    obtain ⟨k, a⟩ := e
    rw [List.filter_cons]
    by_cases hk : k = name <;> by_cases ho : other = k <;> grind

@[simp] theorem find?_erase (m : Keyed α) (name other : String) :
    (m.erase name).find? other = if other = name then none else m.find? other :=
  lookup_without name other m.entries

@[simp] theorem find?_insert (m : Keyed α) (name other : String) (a : α) :
    (m.insert name a).find? other = if other = name then some a else m.find? other := by
  by_cases h : other = name
  · simp [insert, find?, h]
  · have hb : (other == name) = false := by simpa using h
    simp [insert, find?, List.lookup_cons, hb, lookup_without, h]

theorem insertAll_append (m : Keyed α) (as bs : List (String × α)) :
    m.insertAll (as ++ bs) = (m.insertAll as).insertAll bs := List.foldl_append

/-- The entries that are inserted override those that were there, and remove none. -/
theorem find?_insertAll (m : Keyed α) (es : List (String × α)) (name : String) :
    (m.insertAll es).find? name = ((empty.insertAll es).find? name).or (m.find? name) := by
  induction es generalizing m with
  | nil => rfl
  | cons e es ih =>
    have hm := ih (m.insert e.1 e.2)
    have hempty := ih (empty.insert e.1 e.2)
    rw [find?_insert] at hm hempty
    show ((m.insert e.1 e.2).insertAll es).find? name =
      (((empty.insert e.1 e.2).insertAll es).find? name).or (m.find? name)
    rw [hm, hempty, Option.or_assoc]
    split <;> rfl

end Keyed
end ResolvedSql

/-!
Listings and catalogs: entries in the order they were added. No name and no number stands twice, so a
search finds the one entry there is.
-/

set_option autoImplicit false

namespace SpaceLink

structure Listing (α : Type) (name : α → String) where
  entries : List α
  names : (entries.map name).Nodup

structure Catalog (α : Type) (name : α → String) (number : α → UInt16) where
  entries : List α
  names : (entries.map name).Nodup
  numbers : (entries.map number).Nodup

theorem nodup_map_append {α β : Type} (f : α → β) (entries : List α) (a : α)
    (distinct : (entries.map f).Nodup) (absent : ∀ b ∈ entries, f b ≠ f a) :
    ((entries ++ [a]).map f).Nodup := by
  rw [List.map_append, List.nodup_append]
  refine ⟨distinct, by simp, ?_⟩
  intro x inside y last same
  obtain ⟨b, member, equal⟩ := List.mem_map.mp inside
  simp only [List.map_cons, List.map_nil, List.mem_singleton] at last
  exact absent b member (by rw [equal, same, last])

namespace Listing

variable {α : Type} {name : α → String}

def empty : Listing α name := ⟨[], .nil⟩

def ofName? (l : Listing α name) (n : String) : Option α := l.entries.find? fun a => name a == n

def size (l : Listing α name) : Nat := l.entries.length

def add? (l : Listing α name) (a : α) : Option (Listing α name) :=
  if free : ∀ b ∈ l.entries, name b ≠ name a then
    some ⟨l.entries ++ [a], nodup_map_append name l.entries a l.names free⟩
  else none

end Listing

namespace Catalog

variable {α : Type} {name : α → String} {number : α → UInt16}

def empty : Catalog α name number := ⟨[], .nil, .nil⟩

def ofName? (c : Catalog α name number) (n : String) : Option α :=
  c.entries.find? fun a => name a == n

def ofNumber? (c : Catalog α name number) (n : UInt16) : Option α :=
  c.entries.find? fun a => number a == n

def size (c : Catalog α name number) : Nat := c.entries.length

def add? (c : Catalog α name number) (a : α) : Option (Catalog α name number) :=
  if free : ∀ b ∈ c.entries, name b ≠ name a ∧ number b ≠ number a then
    some
      { entries := c.entries ++ [a]
        names := nodup_map_append name c.entries a c.names fun b inside => (free b inside).1
        numbers := nodup_map_append number c.entries a c.numbers fun b inside => (free b inside).2 }
  else none

end Catalog

end SpaceLink

/-
# Containers

A container is a tuple of values together with their tags.  Every check happens when it is built:
its values are canonical for its tags, and that fact is part of the container, so whoever reads one
can rely on the shape that its tags announce.
-/
import MessageBus.Packing.Canonical

namespace MessageBus

/-- Tags and as many values, each canonical for its tag. -/
structure Container where
  tags : List Tag
  values : List Value
  canonical : CanonicalAll tags values

namespace Container

/-- The empty tuple. -/
def empty : Container := ⟨[], [], .nil⟩

instance : Inhabited Container := ⟨empty⟩

/-- Packs values against tags: there have to be as many, and each has to fit. -/
def pack (tags : List Tag) (values : List Value) : Except PackError Container :=
  match h : Value.fitAll Value.fit tags values with
  | .ok packed =>
    .ok ⟨tags, packed, Value.canonicalAll_of_fitAll (fun _ _ _ => Value.canonical_of_fit) h⟩
  | .error e => .error e

/-- Packs values against the tags that a text spells. -/
def packText (signature : String) (values : List Value) : Except PackError Container := do
  pack (← Tag.parseMany signature) values

/-- The values, if the container has just the tags asked for. -/
def unpackAs (c : Container) (tags : List Tag) : Except PackError (List Value) :=
  if c.tags = tags then .ok c.values else .error (.signatureMismatch tags c.tags)

/-- The written form of the tags, as a tuple. -/
def signature (c : Container) : String := Tag.tuple c.tags

/-- The values are those that fitting gives. -/
theorem pack_eq_ok {tags : List Tag} {values : List Value} {c : Container} :
    pack tags values = .ok c ↔
      c.tags = tags ∧ Value.fitAll Value.fit tags values = .ok c.values := by
  unfold pack
  split
  · rename_i packed h
    rw [Except.ok.injEq]
    constructor
    · rintro rfl
      exact ⟨rfl, h⟩
    · rintro ⟨rfl, h'⟩
      rw [h] at h'
      cases h'
      rfl
  · rename_i e h
    simp [h]

end Container

end MessageBus

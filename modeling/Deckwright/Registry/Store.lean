import Deckwright.Registry.Basic

/-!
# Registries in memory

A registry that keeps its documents in a map. Nothing it is asked to do can fail.
-/

namespace Deckwright.Registry

/-- The documents of a registry by the identifier of their decks. -/
abbrev Store := Ordered Upload

namespace Store

/-- Keeps a document, in place of the one of the same deck. -/
def keep (upload : Upload) (store : Store) : Except RegistryError Unit × Store :=
  (.ok (), Ordered.insert upload.deckId upload store)

/-- The registry over such a map. -/
def registry : Registry Store where
  has id store := (.ok (Ordered.has id store), store)
  create := keep
  update := keep

end Store

end Deckwright.Registry

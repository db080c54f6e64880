import Deckwright.Text.Alphanumeric
import Deckwright.Text.Lowercase

/-!
# Names for look-up

A group is looked up by a form of its name that keeps letters and digits only, in lower
case, so that `Tone & Style` and `tone-style` are one name.
-/

namespace Deckwright

/-- The letters and digits of a name in lower case. -/
def lookupName (name : String) : String :=
  String.ofList ((name.toList.filter Text.isAlphanumeric).flatMap Text.lowercase)

end Deckwright

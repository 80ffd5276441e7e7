import GameTable.Json.Printer
import GameTable.Sha256
import GameTable.State.Basic

/-!
# The digest of a state

The hash of the compact document of a state. All dictionaries are in key order, so equal states
have equal documents and equal digests.
-/

namespace GameTable

/-- The text that is hashed. -/
def State.canonical (s : State) : String := s.toJson.render

def State.digest (s : State) : String := Sha256.hexDigest s.canonical

end GameTable

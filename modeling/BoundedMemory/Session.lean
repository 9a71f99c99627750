import BoundedMemory.Host
import BoundedMemory.Host.Files
import BoundedMemory.Session.Run

/-!
Memory and sessions with nothing in them, as they are on the usual host.
-/

namespace BoundedMemory

instance : EmptyCollection Store := ⟨{ machine := Host.machine }⟩

instance : EmptyCollection Session := ⟨.initial Host.machine Host.fileTree⟩

end BoundedMemory

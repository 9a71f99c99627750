import BoundedMemory.Machine

/-!
The usual machine: one of 64 bits, little-endian, with pages of 4096 bytes. The
length of its words and its byte order are taken as given throughout; all else
about it stands for the machine that a session is set up with.
-/

namespace BoundedMemory.Host

/-- How many bytes make a word, on a machine of 64 bits. -/
def wordSize : Nat := 8

/-- More bytes than one block can have. -/
def blockLimit : Nat := 1 <<< 32

def machine : Machine := .below 12 blockLimit (by decide)

def pageSize : Nat := machine.pageSize

end BoundedMemory.Host

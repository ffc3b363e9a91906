import SuperShuckie.KeyframeMasks

/-!
# Console memory as the RAM tools see it

A running core lists its memory as regions of 32-bit addresses; an `AddressPath` leads to a place in
them, through pointers or directly.
-/

set_option autoImplicit false

namespace SuperShuckie

open ByteFormat

/-- A contiguous block of console memory the RAM tools can inspect. -/
structure MemoryRegionInfo where
  /-- First address of the region. -/
  baseAddress : Nat
  /-- Size of the region in bytes. -/
  len : Nat
  /-- Whether the tools may write to this region. -/
  writable : Bool
deriving DecidableEq

/-- One past the last address of the region. -/
def MemoryRegionInfo.endAddress (region : MemoryRegionInfo) : Nat := region.baseAddress + region.len

/-- Offset of `address` into the region if `len` bytes from it lie entirely inside it. -/
def MemoryRegionInfo.offsetOf (region : MemoryRegionInfo) (address len : Nat) : Option Nat :=
  if address < region.baseAddress then none
  else
    let offset := address - region.baseAddress
    if region.len < offset + len then none else some offset

/-! ## Pointer paths -/

/-- Pointer dereferences an address path may go through. -/
def maxPointerDerefs : Nat := 4

/-- An address, optionally reached through pointers: from `base`, a little-endian 32-bit pointer is
read for each offset and the offset added to it. -/
structure AddressPath where
  base : Nat
  derefs : List Int
  bounded : derefs.length ≤ maxPointerDerefs
deriving DecidableEq

namespace AddressPath

/-- A plain address. -/
def direct (address : Nat) : AddressPath := ⟨address, [], Nat.zero_le _⟩

/-- `None` if there are more offsets than a path may have. -/
def withDerefs (base : Nat) (offsets : List Int) : Option AddressPath :=
  if h : offsets.length ≤ maxPointerDerefs then some ⟨base, offsets, h⟩ else none

end AddressPath

end SuperShuckie

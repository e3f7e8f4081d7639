/-
`pte.h` and `pte.cpp`: page-table entries of the two formats.

The getters return `uint32_t` in both classes, so `Pte64.getPpn` drops the
upper bits of a 44-bit page number.
-/
import RiscvEmulator.BitTools

namespace RiscvEmulator

structure Pte32 where
  pte : BitVec 32

namespace Pte32

def getValue (p : Pte32) : BitVec 32 := p.pte

def getPpn (p : Pte32) : BitVec 32 := bitcrop p.pte 22 10
def getPpn1 (p : Pte32) : BitVec 32 := bitcrop p.pte 12 20
def getPpn0 (p : Pte32) : BitVec 32 := bitcrop p.pte 10 10
def getRsw (p : Pte32) : BitVec 32 := bitcrop p.pte 2 8
def getD (p : Pte32) : BitVec 32 := bitcrop p.pte 1 7
def getA (p : Pte32) : BitVec 32 := bitcrop p.pte 1 6
def getG (p : Pte32) : BitVec 32 := bitcrop p.pte 1 5
def getU (p : Pte32) : BitVec 32 := bitcrop p.pte 1 4
def getX (p : Pte32) : BitVec 32 := bitcrop p.pte 1 3
def getW (p : Pte32) : BitVec 32 := bitcrop p.pte 1 2
def getR (p : Pte32) : BitVec 32 := bitcrop p.pte 1 1
def getV (p : Pte32) : BitVec 32 := bitcrop p.pte 1 0

def setPpn (p : Pte32) (ppn : BitVec 32) : Pte32 := ⟨(p.pte &&& ~~~genMask 32 22 10) ||| (ppn <<< 10)⟩
def setRsw (p : Pte32) (rsw : BitVec 32) : Pte32 := ⟨(p.pte &&& ~~~genMask 32 2 8) ||| (rsw <<< 8)⟩
def setD (p : Pte32) (value : Bool) : Pte32 := ⟨setBit p.pte value 7⟩
def setA (p : Pte32) (value : Bool) : Pte32 := ⟨setBit p.pte value 6⟩
def setG (p : Pte32) (value : Bool) : Pte32 := ⟨setBit p.pte value 5⟩
def setU (p : Pte32) (value : Bool) : Pte32 := ⟨setBit p.pte value 4⟩
def setX (p : Pte32) (value : Bool) : Pte32 := ⟨setBit p.pte value 3⟩
def setW (p : Pte32) (value : Bool) : Pte32 := ⟨setBit p.pte value 2⟩
def setR (p : Pte32) (value : Bool) : Pte32 := ⟨setBit p.pte value 1⟩
def setV (p : Pte32) (value : Bool) : Pte32 := ⟨setBit p.pte value 0⟩

def isValid (p : Pte32) : Bool :=
  if p.getV = 0 ∨ (p.getR = 0 ∧ p.getW = 1) then false else true

def isLeaf (p : Pte32) : Bool := p.getR ≠ 0 ∨ p.getW ≠ 0 ∨ p.getX ≠ 0

end Pte32

structure Pte64 where
  pte : BitVec 64

namespace Pte64

def getValue (p : Pte64) : BitVec 64 := p.pte

def getPpn (p : Pte64) : BitVec 32 := (bitcrop p.pte 44 10).setWidth 32
def getPpn2 (p : Pte64) : BitVec 32 := (bitcrop p.pte 26 28).setWidth 32
def getPpn1 (p : Pte64) : BitVec 32 := (bitcrop p.pte 9 19).setWidth 32
def getPpn0 (p : Pte64) : BitVec 32 := (bitcrop p.pte 9 10).setWidth 32
def getRsw (p : Pte64) : BitVec 32 := (bitcrop p.pte 2 8).setWidth 32
def getD (p : Pte64) : BitVec 32 := (bitcrop p.pte 1 7).setWidth 32
def getA (p : Pte64) : BitVec 32 := (bitcrop p.pte 1 6).setWidth 32
def getG (p : Pte64) : BitVec 32 := (bitcrop p.pte 1 5).setWidth 32
def getU (p : Pte64) : BitVec 32 := (bitcrop p.pte 1 4).setWidth 32
def getX (p : Pte64) : BitVec 32 := (bitcrop p.pte 1 3).setWidth 32
def getW (p : Pte64) : BitVec 32 := (bitcrop p.pte 1 2).setWidth 32
def getR (p : Pte64) : BitVec 32 := (bitcrop p.pte 1 1).setWidth 32
def getV (p : Pte64) : BitVec 32 := (bitcrop p.pte 1 0).setWidth 32

-- The mask is of 22 bits, as in the 32-bit class.
def setPpn (p : Pte64) (ppn : BitVec 64) : Pte64 := ⟨(p.pte &&& ~~~genMask 64 22 10) ||| (ppn <<< 10)⟩
def setRsw (p : Pte64) (rsw : BitVec 32) : Pte64 := ⟨(p.pte &&& ~~~genMask 64 2 8) ||| (rsw.setWidth 64 <<< 8)⟩
def setD (p : Pte64) (value : Bool) : Pte64 := ⟨setBit p.pte value 7⟩
def setA (p : Pte64) (value : Bool) : Pte64 := ⟨setBit p.pte value 6⟩
def setG (p : Pte64) (value : Bool) : Pte64 := ⟨setBit p.pte value 5⟩
def setU (p : Pte64) (value : Bool) : Pte64 := ⟨setBit p.pte value 4⟩
def setX (p : Pte64) (value : Bool) : Pte64 := ⟨setBit p.pte value 3⟩
def setW (p : Pte64) (value : Bool) : Pte64 := ⟨setBit p.pte value 2⟩
def setR (p : Pte64) (value : Bool) : Pte64 := ⟨setBit p.pte value 1⟩
def setV (p : Pte64) (value : Bool) : Pte64 := ⟨setBit p.pte value 0⟩

def isValid (p : Pte64) : Bool :=
  if p.getV = 0 ∨ (p.getR = 0 ∧ p.getW = 1) then false else true

def isLeaf (p : Pte64) : Bool := p.getR ≠ 0 ∨ p.getW ≠ 0 ∨ p.getX ≠ 0

end Pte64

end RiscvEmulator

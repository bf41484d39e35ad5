import DocPress.Text.Utf8

/-!
# Packed data

Packed data is a row of blocks.  A block is either stored as it is or a row of
symbols in a prefix code, where a symbol is a byte, a piece of what came before,
or the end of the block.  Data that ends too early gives what was unpacked so
far; data against the rules gives nothing.
-/

namespace DocPress.Archive

/-- Why unpacking stops. -/
inductive Stop where
  | cutOff
  | corrupt
deriving DecidableEq, Inhabited

/-- The bits to read and the bytes unpacked so far. -/
structure Unpacking where
  bits : List Bool
  out : Array UInt8

/-- A step of unpacking. -/
abbrev Unpack (α : Type) := ExceptT Stop (StateM Unpacking) α

/-- The bits of a byte, lowest first. -/
def bitsOfByte (b : UInt8) : List Bool := (List.range 8).map fun i => b.toNat.testBit i

/-- The bits of bytes. -/
def bitsOf (bs : Bytes) : List Bool := bs.flatMap bitsOfByte

namespace Unpack

/-- The next bit. -/
def bit : Unpack Bool := do
  let s ← get
  match s.bits with
  | [] => throw .cutOff
  | b :: rest => do
      set { s with bits := rest }
      return b

/-- A number of the given width, lowest bit first. -/
def number : Nat → Unpack Nat
  | 0 => return 0
  | width + 1 => do
      let low ← bit
      let rest ← number width
      return low.toNat + 2 * rest

/-- Append a byte to the result. -/
def emit (b : UInt8) : Unpack Unit := modify fun s => { s with out := s.out.push b }

/-- Append bytes that stand the given distance before the end, one by one. -/
def copyBack (distance : Nat) : Nat → Unpack Unit
  | 0 => return ()
  | length + 1 => do
      let s ← get
      emit (s.out[s.out.size - distance]?.getD 0)
      copyBack distance length

end Unpack

/-! ### Prefix codes -/

/-- A prefix code: how many symbols there are of each length from one on, and
the symbols by length. -/
structure PrefixCode where
  counts : List Nat
  symbols : Array Nat

namespace PrefixCode

/-- The longest code. -/
def longest : Nat := 15

/-- The code in which each symbol has the given length; zero is no code. -/
def ofLengths (lengths : List Nat) : PrefixCode :=
  let indexed := lengths.zipIdx
  let ofLength := fun n => (indexed.filter fun p => p.1 = n).map Prod.snd
  let widths := (List.range longest).map (· + 1)
  ⟨widths.map fun n => (ofLength n).length, (widths.flatMap ofLength).toArray⟩

/-- The unused part of the code after the given lengths, or nothing if too many
symbols share it. -/
def unused? : Int → List Nat → Option Int
  | left, [] => some left
  | left, n :: more =>
      let left := 2 * left - n
      if left < 0 then none else unused? left more

/-- Whether every row of bits is a code or begins one. -/
def isComplete (c : PrefixCode) : Bool := unused? 1 c.counts = some 0

/-- Whether a code may be used for symbols of a block: a code with one symbol
of one bit may leave the other bit unused, and a code may have no symbols. -/
def isUsable (c : PrefixCode) : Bool :=
  c.isComplete || (c.symbols.size ≤ 1 && (c.counts.drop 1).all (· = 0))

/-- Read a symbol: `code` is the row of bits so far, `first` the first code of
the current length and `index` the number of its symbol. -/
def readFrom (symbols : Array Nat) (code first index : Nat) : List Nat → Unpack Nat
  | [] => throw .corrupt
  | count :: more => do
      let code := code + (← Unpack.bit).toNat
      if code < first + count then return symbols[index + (code - first)]?.getD 0
      else readFrom symbols (2 * code) (2 * (first + count)) (index + count) more

/-- Read a symbol. -/
def read (c : PrefixCode) : Unpack Nat := readFrom c.symbols 0 0 0 c.counts

end PrefixCode

/-! ### Blocks -/

/-- The least length of each length symbol, with the number of further bits. -/
def lengthTable : Array (Nat × Nat) :=
  #[(3, 0), (4, 0), (5, 0), (6, 0), (7, 0), (8, 0), (9, 0), (10, 0), (11, 1), (13, 1), (15, 1),
    (17, 1), (19, 2), (23, 2), (27, 2), (31, 2), (35, 3), (43, 3), (51, 3), (59, 3), (67, 4),
    (83, 4), (99, 4), (115, 4), (131, 5), (163, 5), (195, 5), (227, 5), (258, 0)]

/-- The least distance of each distance symbol, with the number of further
bits. -/
def distanceTable : Array (Nat × Nat) :=
  #[(1, 0), (2, 0), (3, 0), (4, 0), (5, 1), (7, 1), (9, 2), (13, 2), (17, 3), (25, 3), (33, 4),
    (49, 4), (65, 5), (97, 5), (129, 6), (193, 6), (257, 7), (385, 7), (513, 8), (769, 8),
    (1025, 9), (1537, 9), (2049, 10), (3073, 10), (4097, 11), (6145, 11), (8193, 12),
    (12289, 12), (16385, 13), (24577, 13)]

/-- A value from a table and the bits after it. -/
def extended (table : Array (Nat × Nat)) (symbol : Nat) : Unpack Nat :=
  match table[symbol]? with
  | none => throw .corrupt
  | some (least, width) => do return least + (← Unpack.number width)

/-- The symbols of a block up to its end; at most `fuel` of them. -/
def unpackSymbols (lengths distances : PrefixCode) : Nat → Unpack Unit
  | 0 => throw .cutOff
  | fuel + 1 => do
      let symbol ← lengths.read
      if symbol < 256 then do
        Unpack.emit (UInt8.ofNat symbol)
        unpackSymbols lengths distances fuel
      else if symbol = 256 then return ()
      else do
        let length ← extended lengthTable (symbol - 257)
        let distance ← extended distanceTable (← distances.read)
        if (← get).out.size < distance then throw .corrupt
        else do
          Unpack.copyBack distance length
          unpackSymbols lengths distances fuel

/-- The bytes of a stored block. -/
def unpackStored : Unpack Unit := do
  modify fun s => { s with bits := s.bits.drop (s.bits.length % 8) }
  let length ← Unpack.number 16
  let check ← Unpack.number 16
  if length + check != 0xFFFF then throw .corrupt
  else (List.replicate length ()).forM fun _ => do Unpack.emit (UInt8.ofNat (← Unpack.number 8))

/-- The codes of a block that does not bring its own. -/
def fixedCodes : PrefixCode × PrefixCode :=
  (.ofLengths (List.replicate 144 8 ++ List.replicate 112 9 ++ List.replicate 24 7
      ++ List.replicate 8 8),
    .ofLengths (List.replicate 32 5))

/-- The order in which the lengths of the code for lengths are written. -/
def lengthOrder : List Nat := [16, 17, 18, 0, 8, 7, 9, 6, 10, 5, 11, 4, 12, 3, 13, 2, 14, 1, 15]

/-- Read the lengths of codes until there are enough of them; `fuel` bounds the
number of symbols read. -/
def readLengths (code : PrefixCode) (wanted : Nat) : Nat → List Nat → Unpack (List Nat)
  | 0, _ => throw .corrupt
  | fuel + 1, lengths =>
      if wanted < lengths.length then throw .corrupt
      else if lengths.length = wanted then return lengths
      else do
        let symbol ← code.read
        if symbol < 16 then readLengths code wanted fuel (lengths ++ [symbol])
        else if symbol = 16 then
          match lengths.getLast? with
          | none => throw .corrupt
          | some last => do
              let times := 3 + (← Unpack.number 2)
              readLengths code wanted fuel (lengths ++ List.replicate times last)
        else do
          let times ← if symbol = 17 then (3 + ·) <$> Unpack.number 3
            else (11 + ·) <$> Unpack.number 7
          readLengths code wanted fuel (lengths ++ List.replicate times 0)

/-- The codes that a block brings. -/
def readCodes : Unpack (PrefixCode × PrefixCode) := do
  let lengthCount := 257 + (← Unpack.number 5)
  let distanceCount := 1 + (← Unpack.number 5)
  let orderCount := 4 + (← Unpack.number 4)
  if 286 < lengthCount || 30 < distanceCount then throw .corrupt
  else do
    let written ← (lengthOrder.take orderCount).mapM fun symbol => do
      return (symbol, ← Unpack.number 3)
    let code := PrefixCode.ofLengths ((List.range 19).map fun s => (written.lookup s).getD 0)
    if !code.isComplete then throw .corrupt
    else do
      let wanted := lengthCount + distanceCount
      let lengths ← readLengths code wanted (wanted + 1) []
      let first := PrefixCode.ofLengths (lengths.take lengthCount)
      let second := PrefixCode.ofLengths (lengths.drop lengthCount)
      if lengths[256]? = some 0 || !first.isUsable || !second.isUsable then throw .corrupt
      else return (first, second)

/-- The blocks of packed data; at most `fuel` of them. -/
def unpackBlocks : Nat → Unpack Unit
  | 0 => throw .cutOff
  | fuel + 1 => do
      let last ← Unpack.bit
      let kind ← Unpack.number 2
      let size := (← get).bits.length
      if kind = 0 then unpackStored
      else if kind = 1 then unpackSymbols fixedCodes.1 fixedCodes.2 (size + 1)
      else if kind = 2 then do
        let codes ← readCodes
        unpackSymbols codes.1 codes.2 (size + 1)
      else throw .corrupt
      if last then return () else unpackBlocks fuel

/-- The content of packed data as far as it goes, and whether its end was
reached; nothing if it is corrupt. -/
def inflate? (packed : Bytes) : Option (Bytes × Bool) :=
  let bits := bitsOf packed
  match (unpackBlocks (bits.length + 1)).run ⟨bits, #[]⟩ with
  | (.error .corrupt, _) => none
  | (.error .cutOff, s) => some (s.out.toList, false)
  | (.ok _, s) => some (s.out.toList, true)

end DocPress.Archive

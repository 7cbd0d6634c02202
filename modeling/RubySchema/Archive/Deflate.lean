/-!
Compressed data. A stream of bits holds blocks: plain bytes, or symbols in codes of variable length
that stand for bytes and for pieces of what came before.
-/

namespace RubySchema.Deflate

/-- Data and a place in it, counted in bits from the low end of the first byte. -/
structure BitReader where
  bytes : ByteArray
  position : Nat

/-- A reading takes bits from the front; it may fail. -/
abbrev Reading :=
  StateT BitReader Option

namespace Reading

def bit : Reading Nat := fun reader =>
  if h : reader.position / 8 < reader.bytes.size then
    let byte := reader.bytes[reader.position / 8].toNat
    some ((byte >>> (reader.position % 8)) % 2, { reader with position := reader.position + 1 })
  else none

/-- A number of so many bits, the lowest first. -/
def bits : Nat → Reading Nat
  | 0 => return 0
  | count + 1 => do
      let low ← bit
      return low + 2 * (← bits count)

/-- Nothing can be read. -/
def refuse {α : Type} : Reading α := fun _ => none

/-- A value that has to be there. -/
def found {α : Type} : Option α → Reading α
  | some value => return value
  | none => refuse

/-- The rest of a byte that has been begun is left out. -/
def align : Reading Unit :=
  modify fun reader => { reader with position := (reader.position + 7) / 8 * 8 }

end Reading

open Reading

/-- A code: how many symbols there are of each length from one on, and the symbols in order. -/
structure Code where
  counts : List Nat
  symbols : Array Nat

/-- The longest code of a symbol. -/
def maxLength : Nat := 15

/-- The code in which symbols have given lengths; a symbol of length zero does not occur. -/
def Code.ofLengths (lengths : List Nat) : Code :=
  let numbered := lengths.zipIdx
  let ofLength (length : Nat) : List Nat :=
    numbered.filterMap fun entry => if entry.1 = length then some entry.2 else none
  let groups := (List.range maxLength).map fun i => ofLength (i + 1)
  { counts := groups.map List.length, symbols := groups.flatten.toArray }

/-- The next symbol of a code. `first` is the first code of the current length, and `index` the
place of its symbol.
-/
def Code.symbolFrom (code : Code) (value first index : Nat) : List Nat → Reading Nat
  | [] => refuse
  | count :: longer => do
      let value := value + (← bit)
      if value < first + count then found code.symbols[index + (value - first)]?
      else code.symbolFrom (2 * value) (2 * (first + count)) (index + count) longer

def Code.symbol (code : Code) : Reading Nat :=
  code.symbolFrom 0 0 0 code.counts

/-- The code of bytes and lengths where a block brings none of its own. -/
def fixedLiterals : Code :=
  Code.ofLengths
    (List.replicate 144 8 ++ List.replicate 112 9 ++ List.replicate 24 7 ++ List.replicate 8 8)

/-- The code of distances where a block brings none of its own. -/
def fixedDistances : Code :=
  Code.ofLengths (List.replicate 30 5)

/-- The least length of each symbol for lengths, and how many bits are added. -/
def lengthSteps : Array (Nat × Nat) :=
  #[
    (3, 0), (4, 0), (5, 0), (6, 0), (7, 0), (8, 0), (9, 0), (10, 0), (11, 1), (13, 1), (15, 1),
    (17, 1), (19, 2), (23, 2), (27, 2), (31, 2), (35, 3), (43, 3), (51, 3), (59, 3), (67, 4),
    (83, 4), (99, 4), (115, 4), (131, 5), (163, 5), (195, 5), (227, 5), (258, 0)
  ]

/-- The least distance of each symbol for distances, and how many bits are added. -/
def distanceSteps : Array (Nat × Nat) :=
  #[
    (1, 0), (2, 0), (3, 0), (4, 0), (5, 1), (7, 1), (9, 2), (13, 2), (17, 3), (25, 3), (33, 4),
    (49, 4), (65, 5), (97, 5), (129, 6), (193, 6), (257, 7), (385, 7), (513, 8), (769, 8),
    (1025, 9), (1537, 9), (2049, 10), (3073, 10), (4097, 11), (6145, 11), (8193, 12), (12289, 12),
    (16385, 13), (24577, 13)
  ]

/-- A number that a symbol begins and further bits complete. -/
def stepped (steps : Array (Nat × Nat)) (symbol : Nat) : Reading Nat := do
  let (least, extra) ← found steps[symbol]?
  return least + (← bits extra)

/-- Bytes repeated from a distance before the end. -/
def repeated (output : ByteArray) (distance : Nat) : Nat → Option ByteArray
  | 0 => some output
  | count + 1 =>
      if h : 0 < distance ∧ distance ≤ output.size then
        repeated (output.push (output.get (output.size - distance) (by omega))) distance count
      else none

/-- The symbols of a block up to its end. -/
def symbols (literals distances : Code) (output : ByteArray) : Nat → Reading ByteArray
  | 0 => refuse
  | fuel + 1 => do
      let symbol ← literals.symbol
      if symbol < 256 then symbols literals distances (output.push symbol.toUInt8) fuel
      else if symbol = 256 then return output
      else
        let length ← stepped lengthSteps (symbol - 257)
        let distance ← stepped distanceSteps (← distances.symbol)
        symbols literals distances (← found (repeated output distance length)) fuel

def plain (output : ByteArray) : Nat → Reading ByteArray
  | 0 => return output
  | count + 1 => do
      let byte ← bits 8
      plain (output.push byte.toUInt8) count

/-- The order in which the lengths of the code for lengths are given. -/
def lengthOrder : List Nat :=
  [16, 17, 18, 0, 8, 7, 9, 6, 10, 5, 11, 4, 12, 3, 13, 2, 14, 1, 15]

/-- Lengths in a code of their own, backwards; some symbols stand for a length given several times.
-/
def lengths (code : Code) (total : Nat) (done : List Nat) : Nat → Reading (List Nat)
  | 0 => refuse
  | fuel + 1 =>
      if total ≤ done.length then return (done.reverse.take total)
      else do
        let symbol ← code.symbol
        let (length, count) ←
          if symbol < 16 then pure (symbol, 1)
          else if symbol = 16 then do pure (← found done.head?, 3 + (← bits 2))
          else if symbol = 17 then do pure (0, 3 + (← bits 3))
          else do pure (0, 11 + (← bits 7))
        lengths code total (List.replicate count length ++ done) fuel

/-- The codes that a block brings: of bytes and lengths, and of distances. -/
def ownCodes : Reading (Code × Code) := do
  let literalCount := 257 + (← bits 5)
  let distanceCount := 1 + (← bits 5)
  let count := 4 + (← bits 4)
  let given ← (lengthOrder.take count).mapM fun place => do pure (place, ← bits 3)
  let code := Code.ofLengths ((List.range 19).map fun place =>
    ((given.find? fun entry => entry.1 == place).map Prod.snd).getD 0)
  let total := literalCount + distanceCount
  let all ← lengths code total [] (total + 1)
  return (Code.ofLengths (all.take literalCount), Code.ofLengths (all.drop literalCount))

/-- Blocks up to the last one. -/
def blocks (output : ByteArray) : Nat → Reading ByteArray
  | 0 => refuse
  | fuel + 1 => do
      let isLast ← bit
      let kind ← bits 2
      let next ←
        match kind with
        | 0 => do
            align
            let count ← bits 16
            let _ ← bits 16
            plain output count
        | 1 => symbols fixedLiterals fixedDistances output (fuel + 1)
        | 2 => do
            let (literals, distances) ← ownCodes
            symbols literals distances output (fuel + 1)
        | _ => refuse
      if isLast = 1 then return next else blocks next fuel

/-- What compressed data stand for. Blocks and symbols take a bit at least, so their number is
bounded by that of the bits.
-/
def inflate? (bytes : ByteArray) : Option ByteArray :=
  (blocks ByteArray.empty (8 * bytes.size + 1) { bytes, position := 0 }).map Prod.fst

end RubySchema.Deflate

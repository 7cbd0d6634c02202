import RubySchema.Archive.Deflate

/-!
Members of a zip file. A directory at the end of the file says where each member begins; its data
are plain or compressed.
-/

namespace RubySchema.Zip

/-- The number at a place, lowest byte first. -/
def number (bytes : ByteArray) (place : Nat) : Nat → Nat
  | 0 => 0
  | count + 1 =>
      let low := if h : place < bytes.size then bytes[place].toNat else 0
      low + 256 * number bytes (place + 1) count

/-- The mark in front of the end of the directory. -/
def endMark : Nat := 0x06054b50

/-- The mark in front of an entry of the directory. -/
def entryMark : Nat := 0x02014b50

def memberMark : Nat := 0x04034b50

/-- The number of bytes of the end of the directory, without a comment. -/
def endSize : Nat := 22

/-- The place of the end of the directory, at or before a place. -/
def endPlace? (bytes : ByteArray) : Nat → Option Nat
  | 0 => if number bytes 0 4 = endMark && endSize ≤ bytes.size then some 0 else none
  | place + 1 =>
      if number bytes (place + 1) 4 = endMark then some (place + 1) else endPlace? bytes place

/-- A text of the file; none when its bytes are no text. -/
def text? (bytes : ByteArray) (place length : Nat) : Option String :=
  String.fromUTF8? (bytes.extract place (place + length))

/-- The data of a member, as a text. Data that are no text count as empty. -/
def content? (bytes : ByteArray) (entry : Nat) : Option String := do
  let method := number bytes (entry + 10) 2
  let size := number bytes (entry + 20) 4
  let place := number bytes (entry + 42) 4
  if number bytes place 4 != memberMark then none
  else
    let start := place + 30 + number bytes (place + 26) 2 + number bytes (place + 28) 2
    let data := bytes.extract start (start + size)
    let plain ←
      match method with
      | 0 => some data
      | 8 => Deflate.inflate? data
      | _ => none
    return (String.fromUTF8? plain).getD ""

/-- Entries of the directory in order: the names and texts of members. -/
def entries? (bytes : ByteArray) (entry : Nat) : Nat → Option (List (String × String))
  | 0 => some []
  | count + 1 => do
      if number bytes entry 4 != entryMark then none
      else
        let length := number bytes (entry + 28) 2
        let name ← text? bytes (entry + 46) length
        let content ← content? bytes entry
        let next :=
          entry + 46 + length + number bytes (entry + 30) 2 + number bytes (entry + 32) 2
        return (name, content) :: (← entries? bytes next count)

/-- The members of a file; none when it is no zip file. -/
def members? (bytes : ByteArray) : Option (List (String × String)) := do
  let place ← endPlace? bytes (bytes.size - endSize)
  entries? bytes (number bytes (place + 16) 4) (number bytes (place + 10) 2)

end RubySchema.Zip

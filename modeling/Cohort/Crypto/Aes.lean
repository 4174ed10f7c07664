/-!
The block cipher AES with keys of 256 bits. A block is four columns of four bytes, each a word whose
highest byte is the top row.
-/

namespace Cohort.Aes

/-- Multiplies by x in the field of 256 elements. -/
def double (a : UInt8) : UInt8 := (a <<< 1) ^^^ (if a &&& 0x80 = 0 then 0 else 0x1b)

/-- The product in the field of 256 elements, one bit of `b` after the other. -/
def times (a b : UInt8) : UInt8 :=
  ((List.range 8).foldl (fun (acc : UInt8 × UInt8) i =>
    (if (b >>> i.toUInt8) &&& 1 = 0 then acc.1 else acc.1 ^^^ acc.2, double acc.2)) (0, a)).1

def power (a : UInt8) : Nat → UInt8
  | 0 => 1
  | n + 1 => times a (power a n)

def rotateByte (a : UInt8) (n : UInt8) : UInt8 := (a <<< n) ||| (a >>> (8 - n))

/-- The inverse in the field (of zero, zero), followed by an affine map. -/
def substituted (a : UInt8) : UInt8 :=
  let i := power a 254
  i ^^^ rotateByte i 1 ^^^ rotateByte i 2 ^^^ rotateByte i 3 ^^^ rotateByte i 4 ^^^ 0x63

def substitutions : Array UInt8 := Array.ofFn fun i : Fin 256 => substituted i.val.toUInt8

def substitute (a : UInt8) : UInt8 := substitutions.getD a.toNat 0

def wordOf (b0 b1 b2 b3 : UInt8) : UInt32 :=
  (b0.toUInt32 <<< 24) ||| (b1.toUInt32 <<< 16) ||| (b2.toUInt32 <<< 8) ||| b3.toUInt32

/-- What a byte of the top row adds to its column: substituted, then times 2, 1, 1 and 3. -/
def mixtures : Array UInt32 := Array.ofFn fun i : Fin 256 =>
  let s := substituted i.val.toUInt8
  wordOf (double s) s s (double s ^^^ s)

def mixture (a : UInt8) : UInt32 := mixtures.getD a.toNat 0

def row0 (w : UInt32) : UInt8 := (w >>> 24).toUInt8
def row1 (w : UInt32) : UInt8 := (w >>> 16).toUInt8
def row2 (w : UInt32) : UInt8 := (w >>> 8).toUInt8
def row3 (w : UInt32) : UInt8 := w.toUInt8

/-- Turns a column down by `n` bits. -/
def turn (w n : UInt32) : UInt32 := (w >>> n) ||| (w <<< (32 - n))

structure Block where
  c0 : UInt32
  c1 : UInt32
  c2 : UInt32
  c3 : UInt32
  deriving DecidableEq, Repr

def Block.xor (x y : Block) : Block := ⟨x.c0 ^^^ y.c0, x.c1 ^^^ y.c1, x.c2 ^^^ y.c2, x.c3 ^^^ y.c3⟩

/-- Applies `f` to the four bytes that the shifting of rows brings into each column. -/
def Block.shifted (f : UInt8 → UInt8 → UInt8 → UInt8 → UInt32) (b : Block) : Block :=
  ⟨f (row0 b.c0) (row1 b.c1) (row2 b.c2) (row3 b.c3),
   f (row0 b.c1) (row1 b.c2) (row2 b.c3) (row3 b.c0),
   f (row0 b.c2) (row1 b.c3) (row2 b.c0) (row3 b.c1),
   f (row0 b.c3) (row1 b.c0) (row2 b.c1) (row3 b.c2)⟩

/-- A column of a round: substituted and mixed. -/
def mixedColumn (a b c d : UInt8) : UInt32 :=
  mixture a ^^^ turn (mixture b) 8 ^^^ turn (mixture c) 16 ^^^ turn (mixture d) 24

/-- A column of the last round, which does not mix. -/
def plainColumn (a b c d : UInt8) : UInt32 :=
  wordOf (substitute a) (substitute b) (substitute c) (substitute d)

/-- A key, stretched to one block for the start and one for each of the fourteen rounds. -/
structure Key where
  first : Block
  middle : List Block
  last : Block
  deriving DecidableEq, Repr

def substituteWord (w : UInt32) : UInt32 := plainColumn (row0 w) (row1 w) (row2 w) (row3 w)

/-- Stretches the eight words of a key to sixty. -/
def stretch (key : Array UInt32) : Array UInt32 :=
  (List.range' 8 52).foldl (fun w i =>
    let before := w.getD (i - 1) 0
    let changed :=
      if i % 8 = 0 then
        substituteWord (turn before 24) ^^^ ((power 2 (i / 8 - 1)).toUInt32 <<< 24)
      else if i % 8 = 4 then substituteWord before
      else before
    w.push (w.getD (i - 8) 0 ^^^ changed)) key

def wordsOf : List UInt8 → List UInt32
  | b0 :: b1 :: b2 :: b3 :: rest => wordOf b0 b1 b2 b3 :: wordsOf rest
  | _ => []

/-- The key of 32 bytes. -/
def Key.ofBytes (bytes : List UInt8) : Key :=
  let w := stretch (wordsOf bytes).toArray
  let block (i : Nat) : Block :=
    ⟨w.getD (4 * i) 0, w.getD (4 * i + 1) 0, w.getD (4 * i + 2) 0, w.getD (4 * i + 3) 0⟩
  ⟨block 0, (List.range' 1 13).map block, block 14⟩

def encrypt (key : Key) (b : Block) : Block :=
  let mixed := key.middle.foldl (fun s k => (s.shifted mixedColumn).xor k) (b.xor key.first)
  (mixed.shifted plainColumn).xor key.last

/-- A block of sixteen bytes; missing ones are zero. -/
def Block.ofBytes (bytes : List UInt8) : Block :=
  match wordsOf (bytes ++ List.replicate (16 - bytes.length) 0) with
  | c0 :: c1 :: c2 :: c3 :: _ => ⟨c0, c1, c2, c3⟩
  | _ => ⟨0, 0, 0, 0⟩

def Block.bytes (b : Block) : List UInt8 :=
  [b.c0, b.c1, b.c2, b.c3].flatMap fun w => [row0 w, row1 w, row2 w, row3 w]

end Cohort.Aes

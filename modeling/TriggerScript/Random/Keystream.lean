/-!
# ChaCha keystream

The stream of words of the ChaCha cipher with twelve rounds, addressed by position: word `k` of
the stream is word `k % 16` of block `k / 16`.
-/

namespace TriggerScript

abbrev Key := Vector UInt32 8

namespace Keystream

abbrev Block := Vector UInt32 16

def rotateLeft (x : UInt32) (n : UInt32) : UInt32 := x <<< n ||| x >>> (32 - n)

def quarter (a b c d : UInt32) : UInt32 × UInt32 × UInt32 × UInt32 :=
  let a := a + b
  let d := rotateLeft (d ^^^ a) 16
  let c := c + d
  let b := rotateLeft (b ^^^ c) 12
  let a := a + b
  let d := rotateLeft (d ^^^ a) 8
  let c := c + d
  let b := rotateLeft (b ^^^ c) 7
  (a, b, c, d)

/-- The quarter round on the words at four places of a block. -/
def quarterAt (s : Block) (i j k l : Fin 16) : Block :=
  let (a, b, c, d) := quarter s[i] s[j] s[k] s[l]
  (((s.set i a).set j b).set k c).set l d

def doubleRound (s : Block) : Block :=
  let s := quarterAt s 0 4 8 12
  let s := quarterAt s 1 5 9 13
  let s := quarterAt s 2 6 10 14
  let s := quarterAt s 3 7 11 15
  let s := quarterAt s 0 5 10 15
  let s := quarterAt s 1 6 11 12
  let s := quarterAt s 2 7 8 13
  quarterAt s 3 4 9 14

/-- Block before the rounds: constants, key, block number and zeros. -/
def initial (key : Key) (number : UInt64) : Block :=
  #v[0x61707865, 0x3320646e, 0x79622d32, 0x6b206574,
    key[0], key[1], key[2], key[3], key[4], key[5], key[6], key[7],
    number.toUInt32, (number >>> 32).toUInt32, 0, 0]

def block (key : Key) (number : UInt64) : Block :=
  let start := initial key number
  (Nat.repeat doubleRound 6 start).zipWith (· + ·) start

/-- Word of the stream at a position. -/
def word (key : Key) (position : Nat) : UInt32 :=
  (block key (UInt64.ofNat (position / 16))).get ⟨position % 16, Nat.mod_lt _ (by decide)⟩

end Keystream

end TriggerScript

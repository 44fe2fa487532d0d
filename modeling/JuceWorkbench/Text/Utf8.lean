/-! UTF-8 as octets. A text encodes octet by octet with plain arithmetic; decoding refuses
the first sequence that is no scalar value and says where it stands and what is wrong with
it. -/

namespace JuceWorkbench.Text.Utf8

/-- What is wrong with a sequence of octets: it cannot start with its first octet, one of
the octets behind cannot stand there, or the octets end too early. -/
inductive Defect
  | start
  | continuation
  | truncated
  deriving DecidableEq, Repr

/-- The first malformed sequence: where it starts, how many octets it has and the first. -/
structure Malformed where
  position : Nat
  size : Nat
  octet : UInt8
  defect : Defect
  deriving DecidableEq, Repr

def encodeChar (c : Char) : List UInt8 :=
  let n := c.toNat
  if n < 0x80 then [n.toUInt8]
  else if n < 0x800 then [(0xc0 + n / 64).toUInt8, (0x80 + n % 64).toUInt8]
  else if n < 0x10000 then
    [(0xe0 + n / 4096).toUInt8, (0x80 + n / 64 % 64).toUInt8, (0x80 + n % 64).toUInt8]
  else
    [(0xf0 + n / 262144).toUInt8, (0x80 + n / 4096 % 64).toUInt8, (0x80 + n / 64 % 64).toUInt8,
      (0x80 + n % 64).toUInt8]

def encode (text : List Char) : List UInt8 := text.flatMap encodeChar

def isTail (octet : UInt8) : Bool := 0x80 ≤ octet.toNat && octet.toNat < 0xc0

/-- Whether `second` may follow `first` in a sequence of three or four octets: no short form
of a smaller code point, no surrogate, nothing beyond the last code point. -/
def mayFollow (first second : UInt8) : Bool :=
  isTail second &&
    (first.toNat != 0xe0 || 0xa0 ≤ second.toNat) && (first.toNat != 0xed || second.toNat < 0xa0) &&
    (first.toNat != 0xf0 || 0x90 ≤ second.toNat) && (first.toNat != 0xf4 || second.toNat < 0x90)

def tailBits (octet : UInt8) : Nat := octet.toNat % 64

def decodeFrom (position : Nat) : List UInt8 → Except Malformed (List Char)
  | [] => .ok []
  | a :: rest =>
    if a.toNat < 0x80 then
      (decodeFrom (position + 1) rest).map (Char.ofNat a.toNat :: ·)
    else if a.toNat < 0xc2 then .error ⟨position, 1, a, .start⟩
    else if a.toNat < 0xe0 then
      match rest with
      | [] => .error ⟨position, 1, a, .truncated⟩
      | b :: rest =>
        if isTail b then
          (decodeFrom (position + 2) rest).map
            (Char.ofNat ((a.toNat - 0xc0) * 64 + tailBits b) :: ·)
        else .error ⟨position, 1, a, .continuation⟩
    else if a.toNat < 0xf0 then
      match rest with
      | [] => .error ⟨position, 1, a, .truncated⟩
      | b :: rest =>
        if mayFollow a b then
          match rest with
          | [] => .error ⟨position, 2, a, .truncated⟩
          | c :: rest =>
            if isTail c then
              (decodeFrom (position + 3) rest).map
                (Char.ofNat (((a.toNat - 0xe0) * 64 + tailBits b) * 64 + tailBits c) :: ·)
            else .error ⟨position, 2, a, .continuation⟩
        else .error ⟨position, 1, a, .continuation⟩
    else if a.toNat < 0xf5 then
      match rest with
      | [] => .error ⟨position, 1, a, .truncated⟩
      | b :: rest =>
        if mayFollow a b then
          match rest with
          | [] => .error ⟨position, 2, a, .truncated⟩
          | c :: rest =>
            if isTail c then
              match rest with
              | [] => .error ⟨position, 3, a, .truncated⟩
              | d :: rest =>
                if isTail d then
                  (decodeFrom (position + 4) rest).map
                    (Char.ofNat ((((a.toNat - 0xf0) * 64 + tailBits b) * 64 + tailBits c) * 64 +
                      tailBits d) :: ·)
                else .error ⟨position, 3, a, .continuation⟩
            else .error ⟨position, 2, a, .continuation⟩
        else .error ⟨position, 1, a, .continuation⟩
    else .error ⟨position, 1, a, .start⟩

def decode (octets : List UInt8) : Except Malformed (List Char) := decodeFrom 0 octets

/-! Decoding block by block, as octets arrive. -/

def blockSize : Nat := 8192

def blocks (octets : List UInt8) : List (List UInt8) :=
  match octets with
  | [] => []
  | first :: more =>
    (first :: more).take blockSize :: blocks ((first :: more).drop blockSize)
  termination_by octets.length
  decreasing_by simp only [blockSize, List.length_drop, List.length_cons]; omega

/-- Decodes blocks behind octets that are still to be decoded; a sequence that a block does not
end goes on in the next one. Gives the text of all blocks up to a malformed sequence, whose
position counts from the octets that were to be decoded with it. -/
def decodeBlocks (pending : List UInt8) : List (List UInt8) → List Char × Option Malformed
  | [] =>
    match decode pending with
    | .ok text => (text, none)
    | .error malformed => ([], some malformed)
  | block :: more =>
    let octets := pending ++ block
    match decode octets with
    | .ok text =>
      let (rest, malformed) := decodeBlocks [] more
      (text ++ rest, malformed)
    | .error malformed =>
      if malformed.defect = .truncated then
        let text := (decode (octets.take malformed.position)).toOption.getD []
        let (rest, malformed) := decodeBlocks (octets.drop malformed.position) more
        (text ++ rest, malformed)
      else ([], some malformed)

end JuceWorkbench.Text.Utf8

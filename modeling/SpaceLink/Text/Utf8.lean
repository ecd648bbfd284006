import SpaceLink.Bytes

/-!
Text as UTF-8 bytes. Every text has its bytes; bytes that are not well formed are read with a
replacement character for each longest start of a sequence that cannot be completed.
-/

set_option autoImplicit false

namespace SpaceLink.Utf8

def encode (s : String) : Bytes := s.toList.flatMap String.utf8EncodeChar

def replacement : Char := '\ufffd'

def tail (b : UInt8) : Nat := b.toNat % 64

-- The range of the second byte after a lead byte of three or four.
def second (lead b : UInt8) : Bool :=
  let low : UInt8 := if lead = 0xe0 then 0xa0 else if lead = 0xf0 then 0x90 else 0x80
  let high : UInt8 := if lead = 0xed then 0x9f else if lead = 0xf4 then 0x8f else 0xbf
  low ≤ b && b ≤ high

def continues (b : UInt8) : Bool := 0x80 ≤ b && b ≤ 0xbf

def decodeChars : Bytes → List Char
  | [] => []
  | lead :: rest =>
    if lead < 0x80 then Char.ofNat lead.toNat :: decodeChars rest
    else if 0xc2 ≤ lead && lead ≤ 0xdf then
      match rest with
      | [] => [replacement]
      | b :: rest' =>
        if continues b then Char.ofNat (lead.toNat % 32 * 64 + tail b) :: decodeChars rest'
        else replacement :: decodeChars (b :: rest')
    else if 0xe0 ≤ lead && lead ≤ 0xef then
      match rest with
      | [] => [replacement]
      | b :: rest' =>
        if second lead b then
          match rest' with
          | [] => [replacement]
          | c :: rest'' =>
            if continues c then
              Char.ofNat ((lead.toNat % 16 * 64 + tail b) * 64 + tail c) :: decodeChars rest''
            else replacement :: decodeChars (c :: rest'')
        else replacement :: decodeChars (b :: rest')
    else if 0xf0 ≤ lead && lead ≤ 0xf4 then
      match rest with
      | [] => [replacement]
      | b :: rest' =>
        if second lead b then
          match rest' with
          | [] => [replacement]
          | c :: rest'' =>
            if continues c then
              match rest'' with
              | [] => [replacement]
              | d :: rest''' =>
                if continues d then
                  Char.ofNat (((lead.toNat % 8 * 64 + tail b) * 64 + tail c) * 64 + tail d) ::
                    decodeChars rest'''
                else replacement :: decodeChars (d :: rest''')
            else replacement :: decodeChars (c :: rest'')
        else replacement :: decodeChars (b :: rest')
    else replacement :: decodeChars rest

def decode (bytes : Bytes) : String := String.ofList (decodeChars bytes)

def length (s : String) : Nat := s.utf8ByteSize

end SpaceLink.Utf8

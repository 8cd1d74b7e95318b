import Idax.Address
import Idax.Library.Numeral

/-!
This module contains the output builder of processor modules.
-/

namespace Idax
namespace Processor

inductive OutputTokenKind where
  | plainText
  | mnemonic
  | register
  | immediate
  | address
  | symbol
  | comment
  | keyword
  | stringLiteral
  | number
  | operatorSymbol
  | punctuation
  | whitespace
  deriving DecidableEq, Repr

structure OutputToken where
  kind : OutputTokenKind := .plainText
  text : List UInt8
  deriving DecidableEq, Repr

structure OutputContext where
  buffer : List UInt8 := []
  tokens : List OutputToken := []
  deriving DecidableEq, Repr

abbrev Ascii := { ch : UInt8 // ch < 128 }

/--
`snprintf` to a buffer of 64 bytes, of which the last one is for the NUL.
-/
def snprintf64 (text : List UInt8) : List UInt8 :=
  text.take 63

namespace OutputContext

def appendToken (kind : OutputTokenKind) (text : List UInt8) (output : OutputContext) : OutputContext :=
  if text.isEmpty then
    output
  else
    { buffer := output.buffer ++ text, tokens := output.tokens ++ [{ kind, text }] }

def token (kind : OutputTokenKind) (text : List UInt8) (output : OutputContext) : OutputContext :=
  output.appendToken kind text

def append : List UInt8 → OutputContext → OutputContext :=
  token .plainText

def mnemonic : List UInt8 → OutputContext → OutputContext :=
  token .mnemonic

def registerName : List UInt8 → OutputContext → OutputContext :=
  token .register

def symbol : List UInt8 → OutputContext → OutputContext :=
  token .symbol

def keyword : List UInt8 → OutputContext → OutputContext :=
  token .keyword

def comment : List UInt8 → OutputContext → OutputContext :=
  token .comment

def number : List UInt8 → OutputContext → OutputContext :=
  token .number

def operatorSymbol : List UInt8 → OutputContext → OutputContext :=
  token .operatorSymbol

def punctuation : List UInt8 → OutputContext → OutputContext :=
  token .punctuation

def whitespace : List UInt8 → OutputContext → OutputContext :=
  token .whitespace

def stringLiteral (text : List UInt8) (quote : UInt8) (output : OutputContext) : OutputContext :=
  let output := output.punctuation [quote]
  let output := output.token .stringLiteral text
  output.punctuation [quote]

def binaryDigits (bits : UInt64) : (i : Nat) → (started : Bool) → List UInt8
  | 0, _ => []
  | i + 1, started =>
    let bit := (bits >>> .ofNat i) &&& 1 != 0
    let started := started || bit
    let rest := binaryDigits bits i started
    if started || i == 0 then (if bit then 49 else 48) :: rest else rest

def rendered (value : Int64) (radix : Int) : List UInt8 :=
  if radix = 10 then
    snprintf64 (Numeral.encodeSigned value.toInt)
  else if radix = 8 then
    snprintf64 (48 :: Numeral.encode 8 value.toUInt64.toNat)
  else if radix = 2 then
    48 :: 98 :: binaryDigits value.toUInt64 64 false
  else
    snprintf64 (48 :: 120 :: Numeral.encode 16 value.toUInt64.toNat)

def immediate (value : Int64) (radix : Int) : OutputContext → OutputContext :=
  token .immediate (rendered value radix)

def address (address : UInt64) : OutputContext → OutputContext :=
  token .address (snprintf64 (48 :: 120 :: Numeral.encode 16 address.toNat))

def character (ch : UInt8) : OutputContext → OutputContext :=
  if ch = 32 ∨ ch = 9 ∨ ch = 10 ∨ ch = 13 then
    token .whitespace [ch]
  else if ch = 44 ∨ ch = 58 ∨ ch = 59 ∨ ch = 40 ∨ ch = 41 ∨ ch = 91 ∨ ch = 93 ∨ ch = 123 ∨ ch = 125 then
    token .punctuation [ch]
  else
    token .plainText [ch]

def space : OutputContext → OutputContext :=
  whitespace [32]

def comma : OutputContext → OutputContext :=
  punctuation [44]

def clear (_ : OutputContext) : OutputContext :=
  {}

def take (output : OutputContext) : List UInt8 × OutputContext :=
  (output.buffer, {})

def takeTokens (output : OutputContext) : List OutputToken × OutputContext :=
  (output.tokens, { output with tokens := [] })

end OutputContext

inductive OutputCall where
  | token (kind : OutputTokenKind) (text : List UInt8)
  | append (text : List UInt8)
  | mnemonic (text : List UInt8)
  | registerName (text : List UInt8)
  | symbol (text : List UInt8)
  | keyword (text : List UInt8)
  | comment (text : List UInt8)
  | number (text : List UInt8)
  | operatorSymbol (text : List UInt8)
  | punctuation (text : List UInt8)
  | whitespace (text : List UInt8)
  | stringLiteral (text : List UInt8) (quote : Ascii)
  | immediate (value : Int64) (radix : Int)
  | address (address : UInt64)
  | character (ch : Ascii)
  | space
  | comma
  | clear
  | take
  | takeTokens

namespace OutputContext

def call (output : OutputContext) : OutputCall → OutputContext
  | .token kind text => output.token kind text
  | .append text => output.append text
  | .mnemonic text => output.mnemonic text
  | .registerName text => output.registerName text
  | .symbol text => output.symbol text
  | .keyword text => output.keyword text
  | .comment text => output.comment text
  | .number text => output.number text
  | .operatorSymbol text => output.operatorSymbol text
  | .punctuation text => output.punctuation text
  | .whitespace text => output.whitespace text
  | .stringLiteral text quote => output.stringLiteral text quote
  | .immediate value radix => output.immediate value radix
  | .address address => output.address address
  | .character ch => output.character ch
  | .space => output.space
  | .comma => output.comma
  | .clear => output.clear
  | .take => output.take.2
  | .takeTokens => output.takeTokens.2

end OutputContext

end Processor
end Idax

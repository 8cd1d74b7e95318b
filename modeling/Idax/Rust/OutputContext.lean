import Idax.Library.Machine
import Idax.Processor.Immediates

/-!
This module contains the output builder of processor modules in Rust, which has been written a second
time, and the question when it does the same as the one of C++.
-/

namespace Idax
namespace Rust

open Processor (OutputTokenKind OutputToken OutputContext OutputCall Ascii)

namespace OutputContext

def token (kind : OutputTokenKind) (text : List UInt8) (output : OutputContext) : OutputContext :=
  if text.isEmpty then
    output
  else
    { buffer := output.buffer ++ text, tokens := output.tokens ++ [{ kind, text }] }

def append : List UInt8 → OutputContext → OutputContext :=
  token .plainText

def mnemonic : List UInt8 → OutputContext → OutputContext :=
  token .mnemonic

def registerName : List UInt8 → OutputContext → OutputContext :=
  token .register

def symbol : List UInt8 → OutputContext → OutputContext :=
  token .symbol

def keyword : List UInt8 → OutputContext → OutputContext :=
  token .keyword

def comment : List UInt8 → OutputContext → OutputContext :=
  token .comment

def number : List UInt8 → OutputContext → OutputContext :=
  token .number

def operatorSymbol : List UInt8 → OutputContext → OutputContext :=
  token .operatorSymbol

def punctuation : List UInt8 → OutputContext → OutputContext :=
  token .punctuation

def whitespace : List UInt8 → OutputContext → OutputContext :=
  token .whitespace

def stringLiteral (text : List UInt8) (quote : Ascii) (output : OutputContext) : OutputContext :=
  punctuation [quote.val] (token .stringLiteral text (punctuation [quote.val] output))

def rendered (value : Int64) (radix : Int) : List UInt8 :=
  if radix = 10 then
    Numeral.encodeSigned value.toInt
  else if radix = 8 then
    48 :: Numeral.encode 8 value.toUInt64.toNat
  else if radix = 2 then
    48 :: 98 :: Numeral.encode 2 value.toUInt64.toNat
  else
    48 :: 120 :: Numeral.encode 16 value.toUInt64.toNat

def immediate (value : Int64) (radix : Int) : OutputContext → OutputContext :=
  token .immediate (rendered value radix)

def address (address : UInt64) : OutputContext → OutputContext :=
  token .address (48 :: 120 :: Numeral.encode 16 address.toNat)

def isWhitespace (ch : Ascii) : Bool :=
  ch.val = 32 || (9 ≤ ch.val && ch.val ≤ 13)

def character (ch : Ascii) : OutputContext → OutputContext :=
  if isWhitespace ch then
    token .whitespace [ch.val]
  else if ch.val ∈ [44, 58, 59, 40, 41, 91, 93, 123, 125] then
    token .punctuation [ch.val]
  else
    token .plainText [ch.val]

def space : OutputContext → OutputContext :=
  whitespace [32]

def comma : OutputContext → OutputContext :=
  punctuation [44]

def clear (_ : OutputContext) : OutputContext :=
  {}

def take (output : OutputContext) : List UInt8 × OutputContext :=
  (output.buffer, {})

def takeTokens (output : OutputContext) : List OutputToken × OutputContext :=
  (output.tokens, {})

def call (output : OutputContext) : OutputCall → OutputContext
  | .token kind text => token kind text output
  | .append text => append text output
  | .mnemonic text => mnemonic text output
  | .registerName text => registerName text output
  | .symbol text => symbol text output
  | .keyword text => keyword text output
  | .comment text => comment text output
  | .number text => number text output
  | .operatorSymbol text => operatorSymbol text output
  | .punctuation text => punctuation text output
  | .whitespace text => whitespace text output
  | .stringLiteral text quote => stringLiteral text quote output
  | .immediate value radix => immediate value radix output
  | .address a => address a output
  | .character ch => character ch output
  | .space => space output
  | .comma => comma output
  | .clear => clear output
  | .take => (take output).2
  | .takeTokens => (takeTokens output).2

end OutputContext

end Rust
end Idax

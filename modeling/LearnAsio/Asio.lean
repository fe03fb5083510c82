import Mathlib.Tactic.Common

namespace LearnAsio

/-!
# What all the programs use

The programs of this repository exchange byte strings over sockets and learn the
outcome of an operation from the error code that its completion handler is
given.
-/

/-- The contents of a `std::string` or of a character buffer. -/
abbrev Bytes := List UInt8

/-- A string literal of the source. -/
def bytes (literal : String) : Bytes :=
  literal.toList.map fun character => character.toNat.toUInt8

/-- The classes of `asio::error_code` that completion handlers tell apart. -/
inductive ErrorCode where
  | success | operationAborted | failure
  deriving DecidableEq, Repr

/-- An `async_accept` whose handler has not run, with the number of the object
whose socket it fills. -/
structure Accept where
  target : Nat
  completion : Option ErrorCode := none
  deriving DecidableEq, Repr

/-- Closing the acceptor aborts a pending accept. -/
def Accept.cancel (accept : Accept) : Accept :=
  { accept with completion := some (accept.completion.getD .operationAborted) }

end LearnAsio

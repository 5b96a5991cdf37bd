import ForeignCall.Call.Program
import ForeignCall.Text.Quoted

/-!
Native libraries: the functions that symbols stand for.
-/

set_option autoImplicit false

namespace ForeignCall

structure Library (σ : Type) where
  symbols : Std.TreeMap String (List Slot → Native σ)

namespace Library

variable {σ : Type}

def empty : Library σ := ⟨∅⟩

/-- Defines a symbol, in place of an earlier definition. -/
def define (l : Library σ) (symbol : String) (function : List Slot → Native σ) : Library σ :=
  ⟨l.symbols.insert symbol function⟩

def resolve? (l : Library σ) (symbol : String) : Option (List Slot → Native σ) :=
  l.symbols[symbol]?

def contains (l : Library σ) (symbol : String) : Bool := l.symbols.contains symbol

def count (l : Library σ) : Nat := l.symbols.size

def isEmpty (l : Library σ) : Bool := l.symbols.isEmpty

def debugText (l : Library σ) : String :=
  "SymbolTable \x7b symbols: [" ++ ", ".intercalate (l.symbols.keys.map quoted) ++ "] \x7d"

end Library

end ForeignCall

import Abacus.Text.Quoted

namespace Abacus

structure Source where
  name : String
  text : Array Char
  -- Whether an excerpt shows that the last line lacks its newline.
  marksMissingNewline : Bool := true
deriving DecidableEq

namespace Source

def of (name text : String) : Source := ⟨name, text.toList.toArray, true⟩

def chars (source : Source) : List Char := source.text.toList

def size (source : Source) : Nat := source.text.size

def shown (source : Source) : String :=
  "Source(" ++ Text.quoted source.name ++ ", text=<str[" ++ toString source.size ++ "]>)"

-- Sources are told apart by name and text only.
def same (a b : Source) : Bool := a.name == b.name && a.text == b.text

@[simp]
theorem length_chars (source : Source) : source.chars.length = source.size := rfl

@[simp]
theorem chars_of (name text : String) : (of name text).chars = text.toList := rfl

end Source

end Abacus

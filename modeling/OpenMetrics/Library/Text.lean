
namespace OpenMetrics.Library.Text

def split (separator : Char) (s : String) : List String :=
  (s.toList.splitOn separator).map String.ofList

theorem split_ne_nil (separator : Char) (s : String) : split separator s ≠ [] := by
  simp [split]

@[simp] theorem split_empty (separator : Char) : split separator "" = [""] := by
  simp [split]

def isWhitespace (c : Char) : Bool :=
  let n := c.toNat
  (9 ≤ n && n ≤ 13) || n == 0x20 || n == 0x85 || n == 0xA0 || n == 0x1680 ||
    (0x2000 ≤ n && n ≤ 0x200A) || n == 0x2028 || n == 0x2029 || n == 0x202F || n == 0x205F ||
    n == 0x3000

def trim (s : String) : String :=
  String.ofList ((s.toList.dropWhile isWhitespace).reverse.dropWhile isWhitespace).reverse

def replace (old new : Char) (s : String) : String :=
  String.ofList (s.toList.map fun c => if c = old then new else c)

def startsWith (pattern s : String) : Bool := pattern.toList.isPrefixOf s.toList

end OpenMetrics.Library.Text

/-! The total of a count over the items of a list: of natural numbers, and of integers. -/
namespace SeoAudit

def totalOf {α : Type} (count : α → Nat) : List α → Nat
  | [] => 0
  | a :: as => count a + totalOf count as

def sumOf {α : Type} (count : α → Int) : List α → Int
  | [] => 0
  | a :: as => count a + sumOf count as

end SeoAudit

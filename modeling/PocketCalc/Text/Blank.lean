/-!
# Blanks

White space in the sense of Unicode, and its removal from both ends of a text.
-/

namespace PocketCalc
namespace Blank

/-- The code points of white space, as ranges with both ends included. -/
def ranges : List (Nat × Nat) :=
  [(0x09, 0x0D), (0x20, 0x20), (0x85, 0x85), (0xA0, 0xA0), (0x1680, 0x1680), (0x2000, 0x200A),
    (0x2028, 0x2029), (0x202F, 0x202F), (0x205F, 0x205F), (0x3000, 0x3000)]

def isBlank (c : Char) : Bool := ranges.any fun r => r.1 ≤ c.toNat ∧ c.toNat ≤ r.2

/-- A text without the blanks at its two ends. -/
def trim (cs : List Char) : List Char :=
  ((cs.dropWhile isBlank).reverse.dropWhile isBlank).reverse

/-- A text without blanks is left as it is. -/
theorem trim_eq_self {cs : List Char} (h : ∀ c ∈ cs, ¬ isBlank c) : trim cs = cs := by
  have hdrop : ∀ xs : List Char, (∀ c ∈ xs, ¬ isBlank c) → xs.dropWhile isBlank = xs := by
    intro xs hxs
    cases xs with
    | nil => rfl
    | cons x xs => exact List.dropWhile_cons_of_neg (hxs x List.mem_cons_self)
  unfold trim
  rw [hdrop cs h, hdrop cs.reverse fun c hc => h c (List.mem_reverse.1 hc), List.reverse_reverse]

theorem trim_blanks_append {front : List Char} (h : ∀ c ∈ front, isBlank c) (cs : List Char) :
    trim (front ++ cs) = trim cs := by
  unfold trim
  rw [List.dropWhile_append_of_pos h]

theorem trim_append_blanks (cs : List Char) {back : List Char} (h : ∀ c ∈ back, isBlank c) :
    trim (cs ++ back) = trim cs := by
  have hback : ∀ c ∈ back.reverse, isBlank c := fun c hc => h c (List.mem_reverse.1 hc)
  unfold trim
  rw [List.dropWhile_append]
  split
  · next hcs =>
    have hnil : (back ++ []).dropWhile isBlank = [] := List.dropWhile_append_of_pos h
    rw [List.append_nil] at hnil
    rw [List.isEmpty_iff.1 hcs, hnil]
  · rw [List.reverse_append, List.dropWhile_append_of_pos hback]

theorem trim_cons {c : Char} (hc : isBlank c) (cs : List Char) : trim (c :: cs) = trim cs :=
  trim_blanks_append (fun _ h => List.mem_singleton.1 h ▸ hc : ∀ d ∈ [c], isBlank d) cs

end Blank
end PocketCalc

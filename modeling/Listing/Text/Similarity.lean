/-! How alike two texts are, and the candidates closest to a name.
The likeness of `a` and `b` is `2 m / (|a| + |b|)`, where `m` counts the characters in matching
blocks: the longest block that both texts have, and the same again to its left and to its right.
Among equally long blocks the one earliest in `a`, then earliest in `b`, is taken. In a long `b`
characters that occur too often start no block, they only lengthen one. -/
namespace Listing.Text.Similarity

/-- A character is crowded in a text of 200 characters or more if it is over one hundredth of it. -/
def crowded (b : List Char) (c : Char) : Bool :=
  200 ≤ b.length && b.length / 100 + 1 < b.count c

/-- Lengths of the blocks that end at `x` and each place of `b`; `diagonal` and `above` hold the
lengths that end just before `x`. -/
def row (skip : Char → Bool) (x : Char) : Nat → List Char → List Nat → List Nat
  | _, [], _ => []
  | diagonal, y :: ys, above =>
    (if x = y && !skip y then diagonal + 1 else 0) :: row skip x (above.headD 0) ys above.tail

structure Block where
  inLeft : Nat
  inRight : Nat
  size : Nat
  deriving DecidableEq, Repr

/-- The best block so far, after the lengths of the blocks ending at place `i` of the left text and
at the places from `j` on of the right one. -/
def better (i : Nat) : Nat → List Nat → Block → Block
  | _, [], best => best
  | j, k :: ks, best =>
    better i (j + 1) ks (if best.size < k then ⟨i + 1 - k, j + 1 - k, k⟩ else best)

def scan (skip : Char → Bool) (b : List Char) :
    Nat → List Char → List Nat → Block → Block
  | _, [], _, best => best
  | i, x :: a, above, best =>
    let current := row skip x 0 b above
    scan skip b (i + 1) a current (better i 0 current best)

def commonLength : List Char → List Char → Nat
  | x :: a, y :: b => if x = y then commonLength a b + 1 else 0
  | _, _ => 0

/-- A block made longer on both sides while the characters agree, crowded or not. -/
def Block.extend (a b : List Char) (block : Block) : Block :=
  let left := commonLength (a.take block.inLeft).reverse (b.take block.inRight).reverse
  let right := commonLength (a.drop (block.inLeft + block.size)) (b.drop (block.inRight + block.size))
  ⟨block.inLeft - left, block.inRight - left, left + block.size + right⟩

def longestBlock (skip : Char → Bool) (a b : List Char) : Block :=
  (scan skip b 0 a [] ⟨0, 0, 0⟩).extend a b

/-- Characters in matching blocks; each step leaves less of the left text, so its length is enough
fuel. -/
def matchedWithin (skip : Char → Bool) : Nat → List Char → List Char → Nat
  | 0, _, _ => 0
  | fuel + 1, a, b =>
    let block := longestBlock skip a b
    if block.size = 0 then 0
    else
      matchedWithin skip fuel (a.take block.inLeft) (b.take block.inRight) + block.size +
        matchedWithin skip fuel (a.drop (block.inLeft + block.size))
          (b.drop (block.inRight + block.size))

def matched (a b : List Char) : Nat := matchedWithin (crowded b) a.length a b

/-- A likeness as a fraction; two empty texts are alike. -/
structure Ratio where
  num : Nat
  den : Nat
  deriving DecidableEq, Repr

def ratio (a b : List Char) : Ratio :=
  if a.isEmpty && b.isEmpty then ⟨1, 1⟩ else ⟨2 * matched a b, a.length + b.length⟩

def Ratio.close (r : Ratio) : Bool := 3 * r.den ≤ 5 * r.num

/-- Greater likeness first, the greater text first among equal ones. -/
def before (x y : Ratio × String) : Bool :=
  let left := x.1.num * y.1.den
  let right := y.1.num * x.1.den
  right < left || (right == left && y.2 ≤ x.2)

def closest (name : String) (candidates : List String) : List String :=
  let rated := candidates.map fun x => (ratio x.toList name.toList, x)
  (((rated.filter fun r => r.1.close).mergeSort before).take 3).map (·.2)

theorem mem_of_mem_closest {x name : String} {candidates : List String}
    (h : x ∈ closest name candidates) : x ∈ candidates := by
  simp only [closest, List.mem_map] at h
  obtain ⟨r, hr, rfl⟩ := h
  have hr := List.mem_of_mem_take hr
  rw [List.mem_mergeSort, List.mem_filter, List.mem_map] at hr
  obtain ⟨⟨c, hc, rfl⟩, -⟩ := hr
  exact hc

end Listing.Text.Similarity

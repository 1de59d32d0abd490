namespace AmosBasic

def inRuns (number : Nat) : List (Nat × Nat) → Bool
  | [] => false
  | (first, last) :: later => first ≤ number && (number ≤ last || inRuns number later)

end AmosBasic

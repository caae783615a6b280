/-!
# Statements

A body is a flat list of clauses and of markers between them. A clause is linked to all clauses
before it: by OR if a marker stands between it and the clause before, by AND otherwise. Linking goes
from left to right, without precedence.
-/

namespace EntityQuery

/-- An entry of a body. -/
inductive Statement (α : Type) where
  | clause (c : α)
  /-- Links the next clause by OR. -/
  | or
deriving DecidableEq

/-- What links a clause to those before it. -/
inductive Connective where
  | and
  | or
deriving DecidableEq, Inhabited

namespace Statement

variable {α β : Type}

/-- Each clause with its connective, the next one being linked by a given one unless marked. -/
def tagFrom (next : Connective) : List (Statement α) → List (Connective × α)
  | [] => []
  | or :: rest => tagFrom .or rest
  | clause c :: rest => (next, c) :: tagFrom .and rest

/-- Each clause with its connective. Markers without a clause behind them are dropped. -/
def tag (statements : List (Statement α)) : List (Connective × α) :=
  tagFrom .and statements

/-- Link a clause to what is before it. -/
def link (and or : α → α → α) (before : α) : Connective × α → α
  | (.and, c) => and before c
  | (.or, c) => or before c

/-- Link clauses from left to right; the connective of the first is ignored. -/
def fold (and or : α → α → α) : List (Connective × α) → Option α
  | [] => none
  | (_, c) :: rest => some (rest.foldl (link and or) c)

/-- The condition that statements make up, if there is a clause among them. -/
def combine (and or : α → α → α) (statements : List (Statement α)) : Option α :=
  fold and or (tag statements)

end Statement

end EntityQuery

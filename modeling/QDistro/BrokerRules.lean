/-
# Pre-approval rules

The ordered rule list the broker consults before the approval cache.  A rule names
some selectors; a text selector with a literal `*` is a shell pattern, any other is
compared exactly.  The first matching rule decides.
-/
import QDistro.PyText
import Mathlib.Data.List.Infix

namespace Broker

/-! ## Shell patterns -/

/-- One item of a character class: a range, with a single character as a range to itself. -/
structure ClassRange where
  lo : Char
  hi : Char
  deriving DecidableEq, Repr

/-- A token of a shell pattern. -/
inductive PatToken where
  | star
  | anyChar
  | lit (c : Char)
  | cls (negated : Bool) (ranges : List ClassRange)
  deriving DecidableEq, Repr

/-- The ranges of a class body, read from the left. -/
def classRanges : List Char → List ClassRange
  | lo :: '-' :: hi :: rest => ⟨lo, hi⟩ :: classRanges rest
  | c :: rest => ⟨c, c⟩ :: classRanges rest
  | [] => []

/-- The class after an opening bracket and what follows it; `none` without a closing
bracket, which may not be the first character of the body. -/
def patClass (rest : List Char) : Option (PatToken × List Char) :=
  let negated := rest.head? == some '!'
  match (if negated then rest.tail else rest) with
  | [] => none
  | c :: tail =>
    if ']' ∈ tail then
      some (.cls negated (classRanges (c :: tail.takeWhile (· ≠ ']'))),
        (tail.dropWhile (· ≠ ']')).tail)
    else none

/-- Read a pattern into tokens.  The fuel bounds the number of tokens. -/
def patTokens : ℕ → List Char → List PatToken
  | 0, _ => []
  | _, [] => []
  | n + 1, '*' :: rest => .star :: patTokens n rest
  | n + 1, '?' :: rest => .anyChar :: patTokens n rest
  | n + 1, '[' :: rest =>
    match patClass rest with
    | some (tok, rest') => tok :: patTokens n rest'
    | none => .lit '[' :: patTokens n rest
  | n + 1, c :: rest => .lit c :: patTokens n rest

/-- Does one character match a one-character token? -/
def PatToken.accepts : PatToken → Char → Bool
  | .star, _ => false
  | .anyChar, _ => true
  | .lit d, c => c == d
  | .cls negated ranges, c => (ranges.any fun r => decide (r.lo ≤ c ∧ c ≤ r.hi)) != negated

/-- Does a text match a token list from end to end? -/
def matchTokens : List PatToken → List Char → Bool
  | [], s => s.isEmpty
  | .star :: toks, s => s.tails.any fun t => matchTokens toks t
  | tok :: toks, s =>
    match s with
    | [] => false
    | c :: rest => tok.accepts c && matchTokens toks rest

/-- `fnmatch.fnmatchcase(name, pat)` -/
def fnmatchcase (name pat : String) : Bool :=
  matchTokens (patTokens pat.toList.length pat.toList) name.toList

/-! ## Rules -/

/-- What a rule says about the requests it matches. -/
inductive Effect where
  | allow
  | deny
  deriving DecidableEq, Repr

/-- The fields of a loaded rule; a selector that is `none` does not constrain. -/
structure Rule where
  decision : Effect
  sourcePath : String := ""
  uid : Option ℤ := none
  action : Option String := none
  exe : Option String := none
  appId : Option String := none
  sandboxEngine : Option String := none
  mimeType : Option String := none
  argvExact : Option (List String) := none
  argvBasename : Option String := none
  argvPrefix : Option (List String) := none
  scope : Option String := none
  deriving DecidableEq, Repr

/-- What a request shows to the rules. -/
structure RuleQuery where
  uid : ℤ
  action : String
  exe : String
  appId : String
  sandboxEngine : String
  mimeType : String
  argv : Option (List String)
  deriving DecidableEq, Repr

/-- `_str_selector_match` -/
def strSelectorMatch (ruleValue requestValue : String) : Bool :=
  if '*' ∈ ruleValue.toList then fnmatchcase requestValue ruleValue
  else ruleValue == requestValue

/-- A text selector of a rule against the request's text. -/
def selectorMatches (selector : Option String) (value : String) : Bool :=
  match selector with
  | none => true
  | some s => strSelectorMatch s value

/-- The basename selector needs a captured, non-empty argument vector. -/
def basenameMatches (selector : Option String) (argv : Option (List String)) : Bool :=
  match selector, argv with
  | none, _ => true
  | some _, none => false
  | some _, some [] => false
  | some s, some (head :: _) => strSelectorMatch s (PyText.basename head)

/-- `Rule.matches` -/
def Rule.matches (r : Rule) (q : RuleQuery) : Bool :=
  (match r.uid with
    | none => true
    | some n => n == q.uid)
  && selectorMatches r.action q.action
  && selectorMatches r.exe q.exe
  && selectorMatches r.appId q.appId
  && selectorMatches r.sandboxEngine q.sandboxEngine
  && selectorMatches r.mimeType q.mimeType
  && (match r.argvExact with
      | none => true
      | some l => q.argv == some l)
  && basenameMatches r.argvBasename q.argv
  && (match r.argvPrefix, q.argv with
      | none, _ => true
      | some _, none => false
      | some l, some argv => decide (l.length ≤ argv.length) && argv.take l.length == l)

/-- `RulesEngine.match`: the first matching rule, of the given decision if one is given. -/
def matchRules (rules : List Rule) (q : RuleQuery) (decision : Option Effect) : Option Rule :=
  rules.find? fun r =>
    (match decision with
      | none => true
      | some d => r.decision == d)
    && r.matches q

example : strSelectorMatch "qdistro.clipboard.*:user1:*" "qdistro.clipboard.transfer:user1:admin"
    = true := by decide

example : fnmatchcase "python3.12" "python[23].[!0-1]*" = false := by decide

end Broker

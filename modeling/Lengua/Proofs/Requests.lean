import Lengua.Proofs.Scanner

/-!
# A scanner that is used again

A scanner gives tokens one by one and may be set to the start of another text at any point, in the
middle of a line or long after its end. What it gives depends on nothing but the text it was last
set to and how many tokens it was asked for since: the tokens of this text in order, and the last of
them, which is the end mark, for ever.
-/

namespace Lengua

/-- What may be asked of a scanner. -/
inductive Request where
  /-- The next token. -/
  | next
  /-- To go to the start of a text. -/
  | reset (source : Text)

namespace Request

/-- The text that is read after a request. -/
def source (before : Text) : Request → Text
  | .next => before
  | .reset source => source

/-- How many tokens have been asked for since the latest reset, after a request. -/
def count (before : Nat) : Request → Nat
  | .next => before + 1
  | .reset _ => 0

end Request

namespace Scanner

/-- The scanner after a request. -/
def after (scanner : Scanner) : Request → Scanner
  | .next => scanner.next.2
  | .reset source => scanner.reset source

/-- The token that a request is answered with, if one was asked for. -/
def answer? (scanner : Scanner) : Request → Option Token
  | .next => some scanner.next.1
  | .reset _ => none

/-- The answers to requests in order. -/
def answers (scanner : Scanner) : List Request → List (Option Token)
  | [] => []
  | request :: rest => scanner.answer? request :: (scanner.after request).answers rest

/-- A request is answered by the scanner that the requests before it have left. -/
theorem getElem_answers (scanner : Scanner) (requests : List Request) (position : Nat) :
    (scanner.answers requests)[position]? =
      requests[position]?.map ((requests.take position).foldl after scanner).answer? := by
  induction requests generalizing scanner position with
  | nil => rfl
  | cons request rest ih =>
    cases position with
    | zero => rfl
    | succ position => exact ih (scanner.after request) position

/-- A run finds a token if the scanner that earlier tokens have left finds it next. -/
theorem getElem_pull (scanner : Scanner) {count total : Nat} (less : count < total) :
    (scanner.pull total).1[count]? = some (scanner.pull count).2.next.1 := by
  induction count generalizing scanner total with
  | zero =>
    obtain ⟨total, rfl⟩ := Nat.exists_eq_succ_of_ne_zero (Nat.ne_of_gt less)
    rfl
  | succ count ih =>
    obtain ⟨total, rfl⟩ := Nat.exists_eq_succ_of_ne_zero (Nat.ne_of_gt (Nat.zero_lt_of_lt less))
    exact ih scanner.next.2 (Nat.lt_of_succ_lt_succ less)

/-- Requests leave a scanner as it is after so many tokens of the text it was last set to. -/
theorem foldl_after (requests : List Request) (source : Text) (count : Nat) :
    requests.foldl after ((ofText source).pull count).2 =
      ((ofText (requests.foldl Request.source source)).pull
        (requests.foldl Request.count count)).2 := by
  induction requests generalizing source count with
  | nil => rfl
  | cons request rest ih =>
    cases request with
    | next =>
      have one : ((ofText source).pull (count + 1)).2 = ((ofText source).pull count).2.next.2 := by
        rw [pull_add]
        rfl
      rw [List.foldl_cons, after, ← one]
      exact ih source (count + 1)
    | reset other => exact ih other 0

/-- After so many tokens a scanner gives the next one of the text, or the end mark if the text has
no more. -/
theorem next_pull (source : Text) :
    ∃ line, (Token.scan source).getLast? = some (Token.eof line) ∧
      ∀ count, some ((ofText source).pull count).2.next.1 =
        if count < (Token.scan source).length then (Token.scan source)[count]?
        else some (Token.eof line) := by
  obtain ⟨tokens, line, scanned, -, -, pulled⟩ := Token.exists_scan_eq source
  refine ⟨line, by rw [scanned, List.getLast?_concat], fun count => ?_⟩
  rw [← getElem_pull _ (show count < tokens.length + (count + 1) by omega), pulled, scanned,
    List.length_append, List.length_singleton]
  by_cases early : count < tokens.length
  · rw [if_pos (by omega), List.getElem?_append_left early, List.getElem?_append_left early]
  · rw [List.getElem?_append_right (by omega), List.getElem?_replicate, if_pos (by omega)]
    split
    · have last : count - tokens.length = 0 := by omega
      rw [List.getElem?_append_right (by omega), last]
      rfl
    · rfl

/-- Among any requests, one for the next token is answered with the token of the text that the
scanner was last set to in the turn of the request, counted from the latest reset on. From the last
token on, which is the end mark, this is the end mark again and again. -/
theorem answers_scan (source : Text) (requests : List Request) (position : Nat)
    (asked : requests[position]? = some .next) :
    let tokens := Token.scan ((requests.take (position + 1)).foldl Request.source source)
    let turn := (requests.take (position + 1)).foldl Request.count 0
    ∃ line, tokens.getLast? = some (Token.eof line) ∧
      ((ofText source).answers requests)[position]? =
        some (if turn ≤ tokens.length then tokens[turn - 1]? else some (Token.eof line)) := by
  intro tokens turn
  have last : requests.take (position + 1) = requests.take position ++ [.next] := by
    rw [List.take_add_one, asked, Option.toList_some]
  have sameText : tokens = Token.scan ((requests.take position).foldl Request.source source) := by
    simp only [tokens, last, List.foldl_append, List.foldl_cons, List.foldl_nil, Request.source]
  have oneMore : turn = (requests.take position).foldl Request.count 0 + 1 := by
    simp only [turn, last, List.foldl_append, List.foldl_cons, List.foldl_nil, Request.count]
  obtain ⟨line, ends, given⟩ :=
    next_pull ((requests.take position).foldl Request.source source)
  refine ⟨line, by rw [sameText, ends], ?_⟩
  have left := foldl_after (requests.take position) source 0
  rw [getElem_answers, asked, Option.map_some, show (ofText source) = ((ofText source).pull 0).2
    from rfl, left, answer?, given, oneMore, sameText]
  rfl

/-- A scanner is set to another text in the middle of a line of the first. The third token it is
asked for then is the second end mark, on the second line of the other text. -/
theorem answers_scan_reset :
    let requests : List Request := [.next, .next, .reset (utf8 "1\n"), .next, .next, .next]
    requests[5]? = some .next ∧
      ((ofText (utf8 "a\nb c")).answers requests)[5]? = some (some (Token.eof 2)) := by
  intro requests
  have asked : requests[5]? = some .next := rfl
  obtain ⟨line, ends, answered⟩ := answers_scan (utf8 "a\nb c") requests 5 asked
  have scanned : Token.scan (utf8 "1\n") = [⟨.int, utf8 "1", 1⟩, Token.eof 2] := by decide
  have onLine : Token.eof 2 = Token.eof line := by
    have text : (requests.take 6).foldl Request.source (utf8 "a\nb c") = utf8 "1\n" := rfl
    rw [text, scanned] at ends
    exact Option.some.inj ends
  refine ⟨asked, answered.trans ?_⟩
  rw [onLine]
  exact congrArg some (if_neg (by decide))

end Scanner

end Lengua

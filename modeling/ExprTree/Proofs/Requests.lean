import ExprTree.Proofs.Lossless

set_option autoImplicit false

/-!
# Requests to a scanner

A scanner may be asked for its tokens one by one or all at once, with the end-of-file
token or without it, and in any order.  It is a queue of the tokens that are left: each
request is served from the front of the queue, and at its end there is nothing but the
end-of-file token.  The loops that hand out all tokens empty the queue and stop at the
end of the source (`Scanner.drain_eq`, `Scanner.drainBeforeEnd_eq`).  So all requests
together hand out the tokens of the source, none of them twice and none left out, and
nothing comes behind the end (`scanner_requests_agree`).
-/

namespace ExprTree

namespace Scanner

/-! ## Queues of tokens -/

/-- What is handed out on a request if the tokens `left` are left of a source that ends at `finish`,
and what is left then. -/
def Request.serve (finish : Nat) : Request → List Token → Reply × List Token
  | .one, [] => (.one (.endOfFile finish), [])
  | .one, t :: left => (.one t, left)
  | .oneBeforeEnd, [] => (.none, [])
  | .oneBeforeEnd, t :: left => (.one t, left)
  | .all, left => (.many (left ++ [.endOfFile finish]), [])
  | .allBeforeEnd, left => (.many left, [])

/-- What is handed out on a request if nothing is left. -/
def Request.atEnd (finish : Nat) : Request → Reply
  | .one => .one (.endOfFile finish)
  | .oneBeforeEnd => .none
  | .all => .many [.endOfFile finish]
  | .allBeforeEnd => .many []

/-- What is handed out on requests made one after another, and what is left then. -/
def serveAll (finish : Nat) : List Request → List Token → List Reply × List Token
  | [], left => ([], left)
  | request :: requests, left =>
    let (reply, left) := request.serve finish left
    let (replies, left) := serveAll finish requests left
    (reply :: replies, left)

/-- The tokens in replies, without end-of-file tokens. -/
def handed (replies : List Reply) : List Token :=
  (replies.flatMap Reply.tokens).filter fun t => t.kind ≠ .endOfFile

variable {finish : Nat} {left : List Token}

@[simp] theorem serve_nil (finish : Nat) (request : Request) :
    request.serve finish [] = (request.atEnd finish, []) := by
  cases request <;> rfl

theorem serveAll_cons (finish : Nat) (request : Request) (requests : List Request)
    (left : List Token) :
    serveAll finish (request :: requests) left =
      ((request.serve finish left).1 ::
          (serveAll finish requests (request.serve finish left).2).1,
        (serveAll finish requests (request.serve finish left).2).2) := rfl

/-- Once nothing is left every request is served as at the end. -/
theorem serveAll_nil (finish : Nat) (requests : List Request) :
    serveAll finish requests [] = (requests.map (Request.atEnd finish), []) := by
  induction requests with
  | nil => rfl
  | cons request requests ih => rw [serveAll_cons, serve_nil, ih, List.map_cons]

theorem serveAll_append (finish : Nat) (requests more : List Request) (left : List Token) :
    serveAll finish (requests ++ more) left =
      ((serveAll finish requests left).1 ++
          (serveAll finish more (serveAll finish requests left).2).1,
        (serveAll finish more (serveAll finish requests left).2).2) := by
  induction requests generalizing left with
  | nil => rfl
  | cons request requests ih =>
      rw [List.cons_append, serveAll_cons, serveAll_cons, ih]
      rfl

/-- All tokens one by one, up to the end-of-file token. -/
theorem serveAll_one (finish : Nat) (left : List Token) :
    serveAll finish (List.replicate (left.length + 1) .one) left =
      ((left ++ [Token.endOfFile finish]).map .one, []) := by
  induction left with
  | nil => rfl
  | cons t left ih =>
      rw [List.length_cons, List.replicate_succ, serveAll_cons, Request.serve, ih]
      rfl

/-- All tokens one by one, up to where there is none. -/
theorem serveAll_oneBeforeEnd (finish : Nat) (left : List Token) :
    serveAll finish (List.replicate (left.length + 1) .oneBeforeEnd) left =
      (left.map .one ++ [.none], []) := by
  induction left with
  | nil => rfl
  | cons t left ih =>
      rw [List.length_cons, List.replicate_succ, serveAll_cons, Request.serve, ih]
      rfl

/-! ## What is handed out and what is left -/

theorem handed_cons (reply : Reply) (replies : List Reply) :
    handed (reply :: replies) = handed [reply] ++ handed replies := by
  simp only [handed, List.flatMap_cons, List.flatMap_nil, List.filter_append, List.append_nil]

theorem handed_of_forall {ts : List Token} (h : ∀ t ∈ ts, t.kind ≠ .endOfFile) :
    handed [.many ts] = ts := by
  rw [handed, List.flatMap_singleton, Reply.tokens, List.filter_eq_self]
  exact fun t ht => decide_eq_true (h t ht)

/-- A request takes from the front of the queue what it hands out. -/
theorem handed_serve (request : Request) (h : ∀ t ∈ left, t.kind ≠ .endOfFile) :
    handed [(request.serve finish left).1] ++ (request.serve finish left).2 = left := by
  cases left with
  | nil =>
      rw [serve_nil]
      cases request <;> rfl
  | cons t left =>
      have hfront := handed_of_forall (List.forall_mem_singleton.2 (h t List.mem_cons_self))
      have hall := handed_of_forall h
      cases request with
      | one | oneBeforeEnd => exact congrArg (· ++ left) hfront
      | allBeforeEnd => exact (List.append_nil _).trans hall
      | all =>
          have hfinish : handed [.many [.endOfFile finish]] = [] := rfl
          rw [handed, List.flatMap_singleton, Reply.tokens] at hall hfinish
          rw [Request.serve, handed, List.flatMap_singleton, Reply.tokens, List.filter_append, hall,
            hfinish, List.append_nil, List.append_nil]

theorem mem_of_mem_serve {request : Request} {t : Token}
    (ht : t ∈ (request.serve finish left).2) : t ∈ left := by
  cases request with
  | all | allBeforeEnd => cases ht
  | one | oneBeforeEnd =>
      cases left with
      | nil => cases ht
      | cons u left => exact List.mem_cons_of_mem u ht

/-- Requests take from the front of the queue what they hand out. -/
theorem handed_serveAll (finish : Nat) (requests : List Request)
    (h : ∀ t ∈ left, t.kind ≠ .endOfFile) :
    handed (serveAll finish requests left).1 ++ (serveAll finish requests left).2 = left := by
  induction requests generalizing left with
  | nil => rfl
  | cons request requests ih =>
      have hkinds : ∀ t ∈ (request.serve finish left).2, t.kind ≠ .endOfFile :=
        fun t ht => h t (mem_of_mem_serve ht)
      have hmore := ih hkinds
      rw [serveAll_cons, handed_cons, List.append_assoc, hmore, handed_serve request h]

/-- Whether a request asks for all that is left. -/
def Request.Drains (request : Request) : Prop := request = .all ∨ request = .allBeforeEnd

/-- Whether a reply says that nothing is left. -/
def Reply.SaysEnd (reply : Reply) : Prop := reply = .none ∨ ∃ t ∈ reply.tokens, t.kind = .endOfFile

theorem serve_eq_nil_of_drains {request : Request} (h : request.Drains) :
    (request.serve finish left).2 = [] := by
  rcases h with rfl | rfl <;> rfl

theorem serve_eq_nil_of_saysEnd {request : Request} (hleft : ∀ t ∈ left, t.kind ≠ .endOfFile)
    (h : (request.serve finish left).1.SaysEnd) : (request.serve finish left).2 = [] := by
  cases left with
  | nil => rw [serve_nil]
  | cons t left =>
      cases request with
      | all | allBeforeEnd => rfl
      | one | oneBeforeEnd =>
          rcases h with h | ⟨u, hu, hkind⟩
          · cases h
          · rw [List.mem_singleton.1 hu] at hkind
            exact absurd hkind (hleft t List.mem_cons_self)

/-- Once all that is left was asked for, or a reply has said that nothing is left, the queue is
empty. -/
theorem serveAll_eq_nil {requests : List Request} (hleft : ∀ t ∈ left, t.kind ≠ .endOfFile)
    (h : (∃ request ∈ requests, request.Drains) ∨
      ∃ reply ∈ (serveAll finish requests left).1, reply.SaysEnd) :
    (serveAll finish requests left).2 = [] := by
  induction requests generalizing left with
  | nil => rcases h with ⟨_, h, _⟩ | ⟨_, h, _⟩ <;> cases h
  | cons request requests ih =>
      rw [serveAll_cons] at h ⊢
      simp only [List.mem_cons, exists_eq_or_imp] at h
      by_cases hnil : (request.serve finish left).2 = []
      · rw [hnil, serveAll_nil]
      · -- Neither this request nor the reply to it is the one in question.
        apply ih fun t ht => hleft t (mem_of_mem_serve ht)
        rcases h with (h | h) | h | h
        · exact absurd (serve_eq_nil_of_drains h) hnil
        · exact .inl h
        · exact absurd (serve_eq_nil_of_saysEnd hleft h) hnil
        · exact .inr h

/-! ## Scanners are queues -/

theorem kind_next_ne {s : Scanner} (h : s.rest ≠ []) : s.next.1.kind ≠ .endOfFile := by
  obtain ⟨l, hl, _, htoken, _, _⟩ := exists_lexeme h
  rw [htoken]
  exact Lexeme.kind_toToken_ne hl _

/-- The loop that stops at the end-of-file token has then taken all that were left, and stands at
the end. -/
theorem drain_eq (s : Scanner) (found : List Token) :
    s.drain found = (found.reverse ++ s.toEnd, s.atEnd) := by
  induction s using upToEnd_induction generalizing found with
  | nil s h =>
      have hkind : s.next.1.kind = .endOfFile := by
        rw [next_of_nil h]
        rfl
      rw [drain, if_pos hkind, next_of_nil h, toEnd, upToEnd_of_nil h, atEnd_of_nil h,
        List.reverse_cons, List.nil_append]
  | cons s h ih =>
      rw [drain, if_neg (kind_next_ne h), ih, toEnd, toEnd, atEnd_next h, upToEnd_cons h,
        List.reverse_cons, List.append_assoc, List.singleton_append, List.cons_append]

/-- The loop that stops where no token comes has then taken all that were left before the end, and
stands at the end. -/
theorem drainBeforeEnd_eq (s : Scanner) (found : List Token) :
    s.drainBeforeEnd found = (found.reverse ++ s.upToEnd, s.atEnd) := by
  induction s using upToEnd_induction generalizing found with
  | nil s h =>
      rw [drainBeforeEnd, next?_of_nil h]
      simp only [upToEnd_of_nil h, atEnd_of_nil h, List.append_nil]
  | cons s h ih =>
      rw [drainBeforeEnd, next?_of_ne_nil h]
      simp only [ih, atEnd_next h, upToEnd_cons h, List.reverse_cons, List.append_assoc,
        List.singleton_append]

/-- A scanner serves a request from the tokens that are left, and the end stays where it is. -/
theorem answer_eq_serve (s : Scanner) (request : Request) :
    (s.answer request).1 = (request.serve s.atEnd.offset s.upToEnd).1 ∧
      (s.answer request).2.upToEnd = (request.serve s.atEnd.offset s.upToEnd).2 ∧
      (s.answer request).2.atEnd = s.atEnd := by
  cases request with
  | all =>
      rw [answer, drain_eq]
      exact ⟨rfl, rfl, rfl⟩
  | allBeforeEnd =>
      rw [answer, drainBeforeEnd_eq]
      exact ⟨rfl, rfl, rfl⟩
  | one | oneBeforeEnd =>
      obtain ⟨offset, rest⟩ := s
      cases rest with
      | nil => exact ⟨rfl, rfl, rfl⟩
      | cons c cs =>
          have hne : (Scanner.mk offset (c :: cs)).rest ≠ [] := List.cons_ne_nil c cs
          rw [upToEnd_cons hne]
          exact ⟨rfl, rfl, atEnd_next hne⟩

theorem answers_eq_serveAll (s : Scanner) (requests : List Request) :
    s.answers requests = (serveAll s.atEnd.offset requests s.upToEnd).1 := by
  induction requests generalizing s with
  | nil => rfl
  | cons request requests ih =>
      obtain ⟨hreply, hleft, hend⟩ := s.answer_eq_serve request
      have hmore := ih (s.answer request).2
      rw [hleft, hend] at hmore
      rw [serveAll_cons, ← hreply, ← hmore]
      rfl

/-! ## Scanners of a source -/

/-- What a scanner of a source has handed out on requests, the tokens `given`, and what it will hand
out, the tokens `left`. -/
structure Asked (source : String) (requests : List Request) (given left : List Token) : Prop where
  /-- Together they are the tokens of the source before the end-of-file token. -/
  scan_eq : Token.scan source = given ++ left ++ [.endOfFile source.utf8ByteSize]
  kind_ne : ∀ t ∈ given ++ left, t.kind ≠ .endOfFile
  handed_eq : handed ((ofList source.toList).answers requests) = given
  /-- More requests are served from what is left. -/
  answers_eq : ∀ more, (ofList source.toList).answers (requests ++ more) =
    (ofList source.toList).answers requests ++ (serveAll source.utf8ByteSize more left).1
  /-- Asking for all is asking for one token until the end-of-file token comes, and asking for all
  before the end is asking until none comes. -/
  one_by_one : (ofList source.toList).answers
      (requests ++ List.replicate (left.length + 1) .one) =
    (ofList source.toList).answers requests ++
      (left ++ [Token.endOfFile source.utf8ByteSize]).map .one
  one_by_one_beforeEnd : (ofList source.toList).answers
      (requests ++ List.replicate (left.length + 1) .oneBeforeEnd) =
    (ofList source.toList).answers requests ++ (left.map .one ++ [.none])
  /-- Nothing is left once all was asked for or a reply has said so. -/
  left_eq_nil : (∃ request ∈ requests, request.Drains) ∨
    (∃ reply ∈ (ofList source.toList).answers requests, reply.SaysEnd) → left = []
  /-- Once nothing is left every request is served as at the end. -/
  ended : left = [] → ∀ more, (ofList source.toList).answers (requests ++ more) =
    (ofList source.toList).answers requests ++ more.map (Request.atEnd source.utf8ByteSize)

end Scanner

/-- Whatever a scanner of a source is asked for, in any order, the tokens that it hands out are the
first of the source, and what it hands out later are those that follow; all of them, as soon as all
were asked for.  From the end on it hands out the same end-of-file token on every request for one
token or for all, and nothing on the others. -/
theorem scanner_requests_agree (source : String) (requests : List Scanner.Request) :
    ∃ given left, Scanner.Asked source requests given left := by
  have hserved := Scanner.answers_eq_serveAll (Scanner.ofList source.toList)
  rw [Scanner.offset_atEnd_ofList] at hserved
  have hkinds : ∀ t ∈ (Scanner.ofList source.toList).upToEnd, t.kind ≠ .endOfFile :=
    fun t ht => ((Scanner.ofList source.toList).exists_piece_of_mem t ht).1
  have hsplit := Scanner.handed_serveAll source.utf8ByteSize requests hkinds
  have hmore : ∀ more, (Scanner.ofList source.toList).answers (requests ++ more) =
      (Scanner.ofList source.toList).answers requests ++
        (Scanner.serveAll source.utf8ByteSize more (Scanner.serveAll source.utf8ByteSize requests
          (Scanner.ofList source.toList).upToEnd).2).1 := by
    intro more
    rw [hserved, hserved, Scanner.serveAll_append]
  refine ⟨Scanner.handed ((Scanner.ofList source.toList).answers requests),
    (Scanner.serveAll source.utf8ByteSize requests (Scanner.ofList source.toList).upToEnd).2, ?_⟩
  constructor
  case handed_eq => rfl
  case scan_eq => rw [hserved, hsplit, scan_eq]
  case kind_ne => rwa [hserved, hsplit]
  case answers_eq => exact hmore
  case one_by_one => rw [hmore, Scanner.serveAll_one]
  case one_by_one_beforeEnd => rw [hmore, Scanner.serveAll_oneBeforeEnd]
  case left_eq_nil =>
    intro h
    rw [hserved] at h
    exact Scanner.serveAll_eq_nil hkinds h
  case ended =>
    intro hnil more
    rw [hmore, hnil, Scanner.serveAll_nil]

/-- Requests of all sorts, three of them behind the end. -/
example : (Scanner.ofList "a*2".toList).answers
      [.oneBeforeEnd, .one, .allBeforeEnd, .one, .all, .oneBeforeEnd] =
    [.one ⟨.identifier, ⟨0, 1⟩, some "a", .text "a"⟩, .one ⟨.star, ⟨1, 2⟩, none, .absent⟩,
      .many [⟨.number, ⟨2, 3⟩, some "2", .int 2⟩], .one (.endOfFile 3), .many [.endOfFile 3],
      .none] := by
  decide +kernel

end ExprTree

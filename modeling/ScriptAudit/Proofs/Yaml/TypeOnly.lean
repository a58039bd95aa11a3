import ScriptAudit.Proofs.Fault
import ScriptAudit.Proofs.Text.Letter
import ScriptAudit.Yaml.Standard

/-!
# Blocks that give nothing but a type

A block whose only line gives the type by a word of letters and digits is read step by step: the
scanner passes the name, the colon, the word and the end (`tokens?_block`), and the tokens are a
mapping of one pair (`read?_block`). The value of the word depends on its form only, and so does
that of the block (`load_block`).
-/

namespace ScriptAudit.Yaml

/-! ## Letters and digits -/

section

variable {c : Char} (hc : c.isAlphanum = true)

include hc

theorem beq_eq_false_of_isAlphanum {d : Char} (hd : d.isAlphanum = false) : (c == d) = false :=
  beq_eq_false_iff_ne.2 (ne_of_isAlphanum hc hd)

theorem isBlank_eq_false_of_isAlphanum : isBlank c = false := by
  have hne (d : Char) (hd : d.isAlphanum = false) : (c == d) = false :=
    beq_eq_false_of_isAlphanum hc hd
  simp [isBlank, hne]

theorem isBreak_eq_false_of_isAlphanum : isBreak c = false := by
  have hne (d : Char) (hd : d.isAlphanum = false) : (c == d) = false :=
    beq_eq_false_of_isAlphanum hc hd
  simp [isBreak, hne]

theorem elem_indicators_of_isAlphanum : Lexer.indicators.elem c = false := by
  have hall : Lexer.indicators.all (fun d => !d.isAlphanum) = true := by decide
  rw [List.elem_eq_mem, decide_eq_false_iff_not]
  intro hmem
  simpa [hc] using List.all_eq_true.1 hall c hmem

theorem isAllowed_of_isAlphanum : isAllowed c = true := by
  have hbound : 48 ≤ c.toNat ∧ c.toNat ≤ 122 := by
    rw [Char.isAlphanum, Bool.or_eq_true] at hc
    rcases hc with hc | hc
    · have := isAlpha_iff.1 hc
      omega
    · have := toNat_of_isDigit hc
      omega
  simp [isAllowed]
  omega

end

/-- A word is passed over up to its end. -/
theorem PlainScalar.scan_append {w : Text} (hw : ∀ c ∈ w, c.isAlphanum = true) (indent fuel : Nat)
    (value rest : Text) (line column index : Nat) :
    scan false indent (fuel + w.length) false value {} ⟨w ++ rest, line, column, index⟩ =
      scan false indent fuel false (w.reverse ++ value) {}
        ⟨rest, line, column + w.length, index + w.length⟩ := by
  induction w generalizing value column index with
  | nil => rfl
  | cons c w ih =>
    have hc := hw c List.mem_cons_self
    have htail := ih (fun d hd => hw d (List.mem_cons_of_mem c hd)) (c :: value) (column + 1)
      (index + 1)
    rw [List.length_cons, ← Nat.add_assoc, scan]
    simp only [List.cons_append, isBlank_eq_false_of_isAlphanum hc,
      isBreak_eq_false_of_isAlphanum hc,
      beq_eq_false_of_isAlphanum hc (show ':'.isAlphanum = false by decide), Bool.or_false,
      Bool.false_and, if_neg Bool.false_ne_true]
    refine Eq.trans htail ?_
    simp [Nat.add_assoc, Nat.add_comm 1]

/-! ## Steps of the scanner -/

namespace Lexer

variable {l l' : Lexer} {x : Char} {s : Text} (fuel : Nat)

/-- The token that comes next, once the space in front of it is passed over. -/
theorem run_token (hspace : (l.skipSpace (l.cursor.rest.length + 1)).dropStale? = some l')
    (hrest : l'.cursor.rest = x :: s) :
    run (fuel + 1) l = (l'.dedent (some l'.cursor.column)).token? x >>= run fuel := by
  rw [run, hspace]
  dsimp only [Option.bind_eq_bind, Option.bind_some]
  rw [hrest]

/-- The end of the text. -/
theorem run_end (hspace : (l.skipSpace (l.cursor.rest.length + 1)).dropStale? = some l')
    (hrest : l'.cursor.rest = []) (hcolumn : l'.cursor.column = 0) :
    run (fuel + 1) l = (l'.dedent none).dropCandidate?.map tokens := by
  rw [run, hspace]
  dsimp only [Option.bind_eq_bind, Option.bind_some]
  rw [hrest]
  simp only [hcolumn, goto, BEq.rfl, if_true]
  cases (l'.dedent none).dropCandidate? <;> rfl

end Lexer

namespace TypeOnly

/-- The name of the setting. -/
def key : Text := ['t', 'y', 'p', 'e']

/-- The block whose only line gives the type by a word. -/
def block (w : Text) : Text := ['\n', 't', 'y', 'p', 'e', ':', ' '] ++ w ++ ['\n']

/-- In front of the name. -/
def beforeKey (w : Text) : Lexer where
  cursor := ⟨'t' :: 'y' :: 'p' :: 'e' :: ':' :: ' ' :: w ++ ['\n'], 1, 0, 1⟩

/-- In front of the colon, with the name as a possible key. -/
def beforeColon (w : Text) : Lexer where
  cursor := ⟨':' :: ' ' :: w ++ ['\n'], 1, 4, 5⟩
  tokens := #[.scalar key .plain]
  candidates := [some ⟨false, 0, (beforeKey w).cursor⟩]
  keyAllowed := false

/-- Behind the colon, the name having turned out to be a key. -/
def afterColon (w : Text) : Lexer where
  cursor := ⟨' ' :: w ++ ['\n'], 1, 5, 6⟩
  tokens := #[.blockMapping, .key, .scalar key .plain, .value]
  indents := [0]
  keyAllowed := false

/-- In front of the word. -/
def beforeWord (w : Text) : Lexer := (afterColon w).goto ⟨w ++ ['\n'], 1, 6, 7⟩

/-- At the end of the block. -/
def atEnd (w : Text) : Lexer where
  cursor := ⟨[], 2, 0, 8 + w.length⟩
  tokens := #[.blockMapping, .key, .scalar key .plain, .value, .scalar w .plain]
  indents := [0]

theorem token?_beforeKey (w : Text) : (beforeKey w).token? 't' = some (beforeColon w) := by
  rfl

theorem token?_beforeColon (w : Text) : (beforeColon w).token? ':' = some (afterColon w) := by
  have hvalue : (beforeColon w).token? ':' = (beforeColon w).value? := by rfl
  rw [hvalue]
  simp [Lexer.value?, Lexer.insert, Lexer.indent, Lexer.inFlow, Lexer.allowKey, Lexer.mark,
    Lexer.emit, Lexer.goto, Cursor.advance, beforeColon, afterColon, beforeKey]

/-- The end of the line ends the word. -/
theorem read?_word {c : Char} {w : Text} (hw : ∀ d ∈ c :: w, d.isAlphanum = true) :
    PlainScalar.read? false 1 ⟨c :: w ++ ['\n'], 1, 6, 7⟩ =
      some ⟨c :: w, (atEnd (c :: w)).cursor, true⟩ := by
  obtain ⟨k, hk⟩ : ∃ k, 3 * (c :: w ++ ['\n']).length + 3 = k + 4 + (c :: w).length :=
    ⟨2 * (c :: w).length + 2, by simp; omega⟩
  rw [PlainScalar.read?, hk, PlainScalar.scan_append hw]
  simp [PlainScalar.scan, isBlank, isBreak, Cursor.nextLine, Cursor.lineBreak, Gap.lineBreak, atEnd]
  omega

theorem token?_beforeWord {c : Char} {w : Text} (hw : ∀ d ∈ c :: w, d.isAlphanum = true) :
    (beforeWord (c :: w)).token? c = some (atEnd (c :: w)) := by
  have hc := hw c List.mem_cons_self
  have hne (d : Char) (hd : d.isAlphanum = false) : (c == d) = false :=
    beq_eq_false_of_isAlphanum hc hd
  -- a letter or digit begins nothing else
  have hplain : (beforeWord (c :: w)).token? c = (beforeWord (c :: w)).plainScalar? := by
    simp [Lexer.token?, beforeWord, Lexer.goto, afterColon, Cursor.marks, hne,
      isBlank_eq_false_of_isAlphanum hc, Lexer.inFlow,
      show c ∉ Lexer.indicators by simpa using elem_indicators_of_isAlphanum hc]
  have hread := read?_word hw
  rw [hplain]
  simp [Lexer.plainScalar?, Lexer.noteCandidate?, beforeWord, Lexer.goto, afterColon,
    Lexer.inFlow] at hread ⊢
  rw [hread]
  rfl

theorem skipSpace_start (k : Nat) (s : Text) :
    Lexer.skipSpace (k + 2) { cursor := .start ('\n' :: 't' :: s) } =
      { cursor := ⟨'t' :: s, 1, 0, 1⟩ } := by
  rfl

theorem run_start (w : Text) (fuel : Nat) :
    Lexer.run (fuel + 1) { cursor := .start (block w) } = Lexer.run fuel (beforeColon w) := by
  have hlength : (block w).length + 1 = w.length + 7 + 2 := by simp [block]
  have hspace : (Lexer.skipSpace ((block w).length + 1)
      { cursor := .start (block w) }).dropStale? = some (beforeKey w) := by
    rw [hlength]
    exact (skipSpace_start _ _).symm ▸ rfl
  rw [Lexer.run_token fuel hspace (x := 't')
    (s := 'y' :: 'p' :: 'e' :: ':' :: ' ' :: w ++ ['\n']) rfl]
  show (beforeKey w).token? 't' >>= Lexer.run fuel = _
  rw [token?_beforeKey]
  rfl

theorem run_beforeColon (w : Text) (fuel : Nat) :
    Lexer.run (fuel + 1) (beforeColon w) = Lexer.run fuel (afterColon w) := by
  have hspace : ((beforeColon w).skipSpace ((beforeColon w).cursor.rest.length + 1)).dropStale? =
      some (beforeColon w) := by rfl
  rw [Lexer.run_token fuel hspace (x := ':') (s := ' ' :: w ++ ['\n']) rfl]
  show (beforeColon w).token? ':' >>= Lexer.run fuel = _
  rw [token?_beforeColon]
  rfl

theorem run_afterColon {c : Char} {w : Text} (hw : ∀ d ∈ c :: w, d.isAlphanum = true) (fuel : Nat) :
    Lexer.run (fuel + 1) (afterColon (c :: w)) = Lexer.run fuel (atEnd (c :: w)) := by
  have hspace : ((afterColon (c :: w)).skipSpace
      ((afterColon (c :: w)).cursor.rest.length + 1)).dropStale? = some (beforeWord (c :: w)) := by
    have hc := hw c List.mem_cons_self
    have hne (d : Char) (hd : d.isAlphanum = false) : ¬ c = d := ne_of_isAlphanum hc hd
    simp [Lexer.skipSpace, afterColon, beforeWord, Cursor.sees, Cursor.skipWhile, Cursor.advance,
      Lexer.goto, Lexer.dropStale?, hne, isBreak_eq_false_of_isAlphanum hc, Lexer.inFlow]
  rw [Lexer.run_token fuel hspace (x := c) (s := w ++ ['\n']) rfl]
  show (beforeWord (c :: w)).token? c >>= Lexer.run fuel = _
  rw [token?_beforeWord hw]
  rfl

theorem run_atEnd (w : Text) (fuel : Nat) : Lexer.run (fuel + 1) (atEnd w) =
    some #[.blockMapping, .key, .scalar key .plain, .value, .scalar w .plain, .blockEnd] := by
  have hspace : ((atEnd w).skipSpace 1).dropStale? = some (atEnd w) := by
    simp [Lexer.skipSpace, atEnd, Cursor.sees, Cursor.skipWhile, Cursor.advance, Lexer.goto,
      Lexer.dropStale?]
  rw [Lexer.run_end fuel hspace rfl rfl]
  simp [Lexer.dedent, atEnd, Lexer.inFlow, Lexer.dropCandidate?]

/-! ## The tokens and the node -/

theorem all_block {w : Text} (hw : ∀ c ∈ w, c.isAlphanum = true) :
    (block w).all isAllowed = true := by
  have hword : w.all isAllowed = true :=
    List.all_eq_true.2 fun c hc => isAllowed_of_isAlphanum (hw c hc)
  rw [block, List.all_append, List.all_append, hword]
  rfl

theorem tokens?_block {c : Char} {w : Text} (hw : ∀ d ∈ c :: w, d.isAlphanum = true) :
    tokens? (block (c :: w)) =
      some [.blockMapping, .key, .scalar key .plain, .value, .scalar (c :: w) .plain,
        .blockEnd] := by
  have hfuel : (block (c :: w)).length + 2 = w.length + 7 + 4 := by simp [block]
  rw [tokens?, if_pos (all_block hw), hfuel, run_start, run_beforeColon, run_afterColon hw,
    run_atEnd]
  rfl

/-- The mapping of one pair. -/
def node (tag : Tag) (w : Text) : Node := .mapping .map [(.scalar .str key, .scalar tag w)]

/-- The only line is a pair of the name and the word. -/
theorem read?_block {c : Char} {w : Text} (hw : ∀ d ∈ c :: w, d.isAlphanum = true) :
    Document.read? (block (c :: w)) = some (some (node (Tag.ofPlain (c :: w)) (c :: w))) := by
  have hkey : Tag.ofPlain key = .str := by decide
  have hroot : ({ tokens := [.blockMapping, .key, .scalar key .plain, .value,
        .scalar (c :: w) .plain, .blockEnd] } : Reader).root? =
      some (.mapping .map [(.scalar (Tag.ofPlain key) key,
        .scalar (Tag.ofPlain (c :: w)) (c :: w))], { tokens := [] }) := by
    with_unfolding_all rfl
  rw [Document.read?, tokens?_block hw]
  simp only [Option.bind_eq_bind, Option.bind_some]
  rw [hroot, hkey]
  rfl

/-- The mapping has the value of the word, whose type is that of a scalar. -/
theorem value?_node {tag : Tag} {w : Text} {v : Value} (hv : Value.ofScalar tag w = .ok v) :
    (node tag w).value? = .ok (.map [(.str key, v)]) := by
  have hscalar : (Node.scalar tag w).scalarValue = .ok v := hv
  have htag : Node.isCollectionTag tag = false := by
    cases tag <;> first | rfl | cases hv
  have hinspect : (Node.scalar tag w).inspect = .ok [] := by
    show (if Node.isCollectionTag tag then _ else (Node.scalar tag w).scalarValue.map _) = _
    rw [htag, hscalar]
    rfl
  have hpair : Node.inspectPair (.scalar .str key, .scalar tag w) = .ok [] := hinspect
  have hcontents : (node tag w).contents = .ok [] := by
    show ([(Node.scalar .str key, Node.scalar tag w)].mapM Node.inspectPair >>= _) = _
    rw [List.mapM_cons, hpair]
    rfl
  have hvalue : (Node.scalar tag w).valueTo 1 = v := by
    show ((Node.scalar tag w).scalarValue.toOption).getD .null = v
    rw [hscalar]
    rfl
  rw [Node.value?]
  show (([node tag w].mapM Node.contents >>= _) >>= _) = _
  rw [List.mapM_cons, hcontents]
  show Except.ok (Value.map [(.str key, (Node.scalar tag w).valueTo 1)]) = _
  rw [hvalue]

/-- **The block has the value of the word** under the name. -/
theorem load_block {c : Char} {w : Text} (hw : ∀ d ∈ c :: w, d.isAlphanum = true) {v : Value}
    (hv : Value.ofScalar (Tag.ofPlain (c :: w)) (c :: w) = .ok v) :
    Loader.load (block (c :: w)) = .ok (.map [(.str key, v)]) := by
  show load _ = _
  rw [load, read?_block hw]
  exact value?_node hv

end TypeOnly

end ScriptAudit.Yaml

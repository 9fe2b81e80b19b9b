/-
The blocks of any text (`pem_blocks` of `ca/keystore.rs`).

`Rendered` is a PEM text as tools and people write it, with explanations around the blocks, and
`pem_blocks_rendered` says that the splitter gives back what was rendered. `Found` goes the other
way: whatever the text, a block that is returned is under a BEGIN line of its own, and its octets
are those of the lines up to the next END line. The two loops of the source share one iterator,
so the induction is on what is left of the lines, and goes on behind a block.
-/
import Blapki.Pem

set_option autoImplicit false

namespace Blapki

/-! ## White space around a text -/

/-- The text with white space on both sides. -/
def Indented (text line : String) : Prop :=
  ∃ pre post : List Char, (∀ c ∈ pre, is_whitespace c = true) ∧
    (∀ c ∈ post, is_whitespace c = true) ∧ line = String.ofList (pre ++ text.toList ++ post)

theorem trim_append_white (l : List Char) {post : List Char}
    (h : ∀ c ∈ post, is_whitespace c = true) :
    trim (String.ofList (l ++ post)) = trim (String.ofList l) := by
  induction post using List.reverseRecOn with
  | nil => rw [List.append_nil]
  | append_singleton post c ih =>
      rw [List.forall_mem_append, List.forall_mem_singleton] at h
      rw [← List.append_assoc, trim_concat _ h.2, ih h.1]

theorem trim_white_append (l : List Char) {pre : List Char}
    (h : ∀ c ∈ pre, is_whitespace c = true) :
    trim (String.ofList (pre ++ l)) = trim (String.ofList l) := by
  induction pre with
  | nil => rfl
  | cons c pre ih =>
      rw [List.forall_mem_cons] at h
      rw [← ih h.2]
      simp only [trim, String.toList_ofList, List.cons_append, List.dropWhile_cons_of_pos h.1]

/-- Indentation is trimmed. -/
theorem trim_indented {text line : String} (h : Indented text line) : trim line = trim text := by
  obtain ⟨pre, post, hpre, hpost, rfl⟩ := h
  rw [trim_append_white _ hpost, trim_white_append _ hpre, String.ofList_toList]

/-- White space at the end removed. -/
def trim_end (l : List Char) : List Char := (l.reverse.dropWhile is_whitespace).reverse

/-- Only what follows the last solid character is removed. -/
theorem trim_end_solid {p t : List Char} {c : Char} (hc : is_whitespace c = false) :
    trim_end (p ++ c :: t) = p ++ c :: trim_end t := by
  have hsplit : (p ++ c :: t).reverse = t.reverse ++ (c :: p.reverse) := by
    simp only [List.reverse_append, List.reverse_cons, List.append_assoc, List.singleton_append]
  have hback : (t.reverse ++ (c :: p.reverse)).dropWhile is_whitespace
      = t.reverse.dropWhile is_whitespace ++ (c :: p.reverse) := by
    rw [List.dropWhile_append]
    split_ifs with hempty
    · rw [List.isEmpty_iff.mp hempty, List.dropWhile_cons_of_neg (by simp [hc]), List.nil_append]
    · rfl
  rw [trim_end, hsplit, hback]
  simp only [trim_end, List.reverse_append, List.reverse_cons, List.reverse_reverse,
    List.append_assoc, List.singleton_append]

theorem dropWhile_solid {l : List Char} (h : ∀ c ∈ l.head?, is_whitespace c = false) :
    l.dropWhile is_whitespace = l := by
  rcases l with _ | ⟨c, l⟩
  · rfl
  · have hc : is_whitespace c = false := h c rfl
    exact List.dropWhile_cons_of_neg (by rw [hc]; exact Bool.false_ne_true)

/-- A text that begins with a solid character is trimmed at its end. -/
theorem trim_of_head {l : List Char} (h : ∀ c ∈ l.head?, is_whitespace c = false) :
    (trim (String.ofList l)).toList = trim_end l := by
  rw [trim, String.toList_ofList, String.toList_ofList, dropWhile_solid h, trim_end]

theorem mem_trim_end {l : List Char} {c : Char} (h : c ∈ trim_end l) : c ∈ l := by
  rw [trim_end, List.mem_reverse] at h
  exact List.mem_reverse.mp ((List.dropWhile_suffix _).subset h)

/-- What is left does not end in white space. -/
theorem getLast_trim_end {l : List Char} {c : Char} (h : (trim_end l).getLast? = some c) :
    is_whitespace c = false := by
  rw [trim_end, List.getLast?_reverse] at h
  have hnot := List.head?_dropWhile_not is_whitespace l.reverse
  rw [h] at hnot
  simpa using hnot

theorem trim_end_eq_self {l : List Char} (h : ∀ c ∈ l.getLast?, is_whitespace c = false) :
    trim_end l = l := by
  rcases List.eq_nil_or_concat l with rfl | ⟨p, c, rfl⟩
  · rfl
  · rw [List.concat_eq_append] at h ⊢
    exact trim_end_solid (h c List.getLast?_concat)

/-- A text with no white space at its ends is left alone. -/
theorem trim_eq_self {text : String}
    (hhead : ∀ c ∈ text.toList.head?, is_whitespace c = false)
    (hlast : ∀ c ∈ text.toList.getLast?, is_whitespace c = false) : trim text = text := by
  have htrim := trim_of_head hhead
  rw [String.ofList_toList, trim_end_eq_self hlast] at htrim
  exact String.toList_inj.mp htrim

/-! ## Lines with their ends -/

/-- A text of these lines, each ended by LF or CRLF; the last one may be left without an
end. -/
inductive Ended : String → List String → Prop
  | nil : Ended "" []
  | last {line : String} : '\n' ∉ line.toList → Ended line [line]
  | lf {line text : String} {lines : List String} : '\n' ∉ line.toList → Ended text lines →
      Ended (line ++ "\n" ++ text) (line :: lines)
  | crlf {line text : String} {lines : List String} : '\n' ∉ line.toList → Ended text lines →
      Ended (line ++ "\r\n" ++ text) (line :: lines)

theorem raw_lines_line {line : String} (h : '\n' ∉ line.toList) : raw_lines line = [line] := by
  have hlines := raw_lines_intercalate (List.forall_mem_singleton.mpr h) (List.cons_ne_nil _ _)
  rwa [String.intercalate_singleton] at hlines

theorem raw_lines_append {line text : String} (h : '\n' ∉ line.toList) :
    raw_lines (line ++ "\n" ++ text) = line :: raw_lines text := by
  have hlist : (line ++ "\n" ++ text).toList = line.toList ++ '\n' :: text.toList := by
    rw [String.toList_append, String.toList_append, List.append_assoc]
    rfl
  have hline := raw_lines_line h
  rw [raw_lines] at hline
  rw [raw_lines, hlist, List.splitOn_append_cons_self, List.map_append, hline]
  rfl

/-- To one who trims them, the lines of a text are those it was made of, up to an empty one
at the end. -/
theorem trim_ended {text : String} {lines : List String} (h : Ended text lines) :
    (raw_lines text).map trim = lines.map trim ∨
      (raw_lines text).map trim = lines.map trim ++ [""] := by
  induction h with
  | nil => exact .inr (by decide)
  | last hline => exact .inl (by rw [raw_lines_line hline])
  | @lf line text lines hline _ ih =>
      rw [raw_lines_append hline, List.map_cons, List.map_cons, List.cons_append]
      exact ih.imp (congrArg (trim line :: ·)) (congrArg (trim line :: ·))
  | @crlf line text lines hline _ ih =>
      -- the carriage return is white space at the end of the line
      have hcr : '\n' ∉ (String.ofList (line.toList ++ ['\r'])).toList := by
        rw [String.toList_ofList, List.mem_append]
        rintro (hmem | hmem)
        · exact hline hmem
        · exact absurd hmem (by decide)
      have htext : line ++ "\r\n" ++ text = String.ofList (line.toList ++ ['\r']) ++ "\n" ++ text := by
        apply String.toList_inj.mp
        simp only [String.toList_append, String.toList_ofList, List.append_assoc]
        rfl
      have htrim : trim (String.ofList (line.toList ++ ['\r'])) = trim line := by
        rw [trim_concat _ (by decide), String.ofList_toList]
      rw [htext, raw_lines_append hcr, List.map_cons, List.map_cons, List.cons_append, htrim]
      exact ih.imp (congrArg (trim line :: ·)) (congrArg (trim line :: ·))

/-! ## What is rendered is found -/

namespace keystore

/-- Lines of a PEM text with these blocks: explanations, and blocks of a BEGIN line, base64 that
is broken into lines anywhere, and an END line, all of them indented as they may be. -/
inductive Rendered : List String → List (String × Bytes) → Prop
  | nil : Rendered [] []
  | explained {line : String} {lines : List String} {blocks : List (String × Bytes)} :
      starts_with (trim line) "-----BEGIN " = false → Rendered lines blocks →
      Rendered (line :: lines) blocks
  | block {label first last : String} {der : Bytes} {chunks body lines : List String}
      {blocks : List (String × Bytes)} :
      Indented ("-----BEGIN " ++ label ++ "-----") first →
      String.join chunks = base64.encode der → List.Forall₂ Indented chunks body →
      Indented ("-----END " ++ label ++ "-----") last → Rendered lines blocks →
      Rendered (first :: (body ++ last :: lines)) ((label, der) :: blocks)

/-- A line that does not begin a block has no label. -/
theorem begin_label_eq_none {line : String} (h : starts_with (trim line) "-----BEGIN " = false) :
    begin_label line = none := by
  have hprefix : strip_prefix (trim line) "-----BEGIN " = none := by
    unfold strip_prefix
    rw [Option.map_eq_none_iff]
    by_contra hne
    obtain ⟨rest, hrest⟩ := Option.ne_none_iff_exists'.mp hne
    obtain ⟨p, hp, heq⟩ := List.dropPrefix?_eq_some_iff.mp hrest
    rw [eq_of_beq heq] at hp
    rw [starts_with, List.isPrefixOf_iff_prefix.mpr ⟨rest, hp.symm⟩] at h
    cases h
  rw [begin_label, hprefix]
  rfl

/-- A line that ends in dashes has nothing to trim. -/
theorem trim_dashes {p : String} (hp : p.toList.head? = some '-') (label : String) :
    trim (p ++ label ++ "-----") = p ++ label ++ "-----" := by
  have hfirst : ∃ rest, (p ++ label ++ "-----").toList = '-' :: rest := by
    obtain ⟨rest, hrest⟩ : ∃ rest, p.toList = '-' :: rest := by
      cases hlist : p.toList with
      | nil =>
          rw [hlist] at hp
          cases hp
      | cons c rest =>
          rw [hlist] at hp
          exact ⟨rest, by rw [Option.some.inj hp]⟩
    rw [String.toList_append, String.toList_append, hrest]
    exact ⟨_, rfl⟩
  have hend : (p ++ label ++ "-----").toList = (p ++ label ++ "----").toList ++ ['-'] := by
    simp only [String.toList_append, List.append_assoc]
    rfl
  -- a dash at either end
  apply trim_eq_self
  · intro c hc
    obtain ⟨rest, hrest⟩ := hfirst
    rw [hrest] at hc
    obtain rfl := Option.some.inj hc
    decide
  · intro c hc
    rw [hend, List.getLast?_concat] at hc
    obtain rfl := Option.some.inj hc
    decide

/-- The characters of base64 are not trimmed, and do not end a block. -/
theorem trim_chunk {chunk : String} {der : Bytes} (h : ∀ c ∈ chunk.toList, c ∈ base64.digits der) :
    trim chunk = chunk ∧ starts_with chunk "-----END " = false := by
  have hcharacter : ∀ c ∈ chunk.toList, is_whitespace c = false ∧ c ≠ '-' :=
    fun c hc => base64_character (h c hc)
  constructor
  · apply trim_eq_self
    · intro c hc
      exact (hcharacter c (List.mem_of_head? hc)).1
    · intro c hc
      exact (hcharacter c (List.mem_of_getLast? hc)).1
  · exact starts_with_eq_false (show '-' ∈ "-----END ".toList by decide) fun hmem =>
      (hcharacter '-' hmem).2 rfl

/-- The lines under a BEGIN line are the chunks again. -/
theorem trim_body {chunks body : List String} {der : Bytes}
    (hchunks : ∀ chunk ∈ chunks, ∀ c ∈ chunk.toList, c ∈ base64.digits der)
    (hbody : List.Forall₂ Indented chunks body) :
    body.map trim = chunks ∧ ∀ line ∈ body, starts_with (trim line) "-----END " = false := by
  induction hbody with
  | nil => exact ⟨rfl, fun line hline => absurd hline List.not_mem_nil⟩
  | @cons chunk line chunks body hline _ ih =>
      rw [List.forall_mem_cons] at hchunks
      obtain ⟨hmap, hends⟩ := ih hchunks.2
      obtain ⟨hself, hend⟩ := trim_chunk hchunks.1
      have htrim : trim line = chunk := (trim_indented hline).trans hself
      rw [List.map_cons, hmap, htrim, List.forall_mem_cons, htrim]
      exact ⟨rfl, hend, hends⟩

theorem mem_join {chunks : List String} {chunk : String} (h : chunk ∈ chunks) :
    ∀ c ∈ chunk.toList, c ∈ (String.join chunks).toList := by
  induction chunks with
  | nil => exact absurd h List.not_mem_nil
  | cons first chunks ih =>
      intro c hc
      rw [String.join_cons, String.toList_append, List.mem_append]
      rcases List.mem_cons.mp h with rfl | h
      · exact .inl hc
      · exact .inr (ih h c hc)

/-- **The splitter gives back what was rendered.** -/
theorem pem_blocks_in_rendered {lines : List String} {blocks : List (String × Bytes)}
    (h : Rendered lines blocks) : pem_blocks_in none lines = blocks := by
  induction h with
  | nil => rfl
  | explained hline _ ih => simp only [pem_blocks_in, begin_label_eq_none hline, ih]
  | @block label first last der chunks body lines blocks hfirst hchunks hbody hlast _ ih =>
      have hlist : (base64.encode der).toList = base64.digits der := by
        rw [base64.encode, String.toList_ofList]
      -- the chunks of the body are digits, so none of them looks like an end
      obtain ⟨hmap, hends⟩ := trim_body (fun chunk hchunk c hc => by
        rw [← hlist, ← hchunks]
        exact mem_join hchunk c hc) hbody
      have hbegin : begin_label first = some label :=
        begin_label_begin ((trim_indented hfirst).trans (trim_dashes rfl label))
      have hend : starts_with (trim last) "-----END " = true := by
        rw [trim_indented hlast, trim_dashes rfl label, String.append_assoc]
        exact starts_with_append _ _
      have hblock : block label (base64.encode der) = [(label, der)] := by
        rw [block, hlist]
        have hdec : base64.decode (base64.digits der) = some der := base64.undigits_digits der
        rw [hdec]
      simp only [pem_blocks_in, hbegin, pem_blocks_in_body hends hend, String.empty_append, hmap,
        hchunks, hblock, ih]
      rfl

theorem pem_blocks_rendered {text : String} {lines : List String} {blocks : List (String × Bytes)}
    (htext : Ended text lines) (h : Rendered lines blocks) : pem_blocks text = blocks := by
  rw [pem_blocks_eq, ← pem_blocks_in_rendered h]
  rcases trim_ended htext with htrim | htrim
  · exact pem_blocks_in_congr htrim
  · have hconcat : (raw_lines text).map trim = (lines ++ [""]).map trim := by
      rw [htrim, List.map_append]
      rfl
    rw [pem_blocks_in_congr hconcat, pem_blocks_in_concat]

/-- A line with a label is a BEGIN line. -/
theorem begin_label_eq_some {line label : String} (h : begin_label line = some label) :
    trim line = "-----BEGIN " ++ label ++ "-----" := by
  obtain ⟨rest, hprefix, hsuffix⟩ := Option.bind_eq_some_iff.mp h
  obtain ⟨rest', hrest, rfl⟩ := Option.map_eq_some_iff.mp hprefix
  obtain ⟨p, hp, heq⟩ := List.dropPrefix?_eq_some_iff.mp hrest
  obtain ⟨label', hlabel, rfl⟩ := Option.map_eq_some_iff.mp hsuffix
  obtain ⟨q, hq, heq'⟩ := List.dropSuffix?_eq_some_iff.mp hlabel
  rw [eq_of_beq heq] at hp
  rw [String.toList_ofList, eq_of_beq heq'] at hq
  have hlist : (String.ofList label').toList = label' := String.toList_ofList
  apply String.toList_inj.mp
  rw [hp, hq, String.toList_append, String.toList_append, hlist, List.append_assoc]

/-! ## What is found was there -/

/-- The line does not end a block. -/
def goes_on (line : String) : Bool := !starts_with (trim line) "-----END "

/-- The lines strictly between the one at `p` and the next END line, or the end of the text. -/
def between (ls : List String) (p : Nat) : List String := (ls.drop (p + 1)).takeWhile goes_on

/-- The line at `p` begins the block, and its octets are those of the lines under it. -/
structure BlockAt (ls : List String) (p : Nat) (b : String × Bytes) : Prop where
  begins : ∃ line, ls[p]? = some line ∧ trim line = "-----BEGIN " ++ b.1 ++ "-----"
  decodes : base64.decode (String.join ((between ls p).map trim)).toList = some b.2

/-- The blocks are of BEGIN lines in their order. -/
def Found (ls : List String) (blocks : List (String × Bytes)) : Prop :=
  ∃ positions : List Nat, positions.Pairwise (· < ·) ∧
    List.Forall₂ (BlockAt ls) positions blocks

/-- A block of the rest of a text is one of the text. -/
theorem BlockAt.of_drop {ls : List String} {k p : Nat} {b : String × Bytes}
    (h : BlockAt (ls.drop k) p b) : BlockAt ls (k + p) b := by
  obtain ⟨⟨line, hline, hlabel⟩, hdecodes⟩ := h
  have hbetween : between ls (k + p) = between (ls.drop k) p := by
    rw [between, between, List.drop_drop, Nat.add_assoc]
  refine ⟨⟨line, ?_, hlabel⟩, ?_⟩
  · rw [← hline, List.getElem?_drop]
  · rw [hbetween]
    exact hdecodes

theorem Found.of_drop {ls : List String} {k : Nat} {blocks : List (String × Bytes)}
    (h : Found (ls.drop k) blocks) : ∃ positions : List Nat, positions.Pairwise (· < ·) ∧
      (∀ p ∈ positions, k ≤ p) ∧ List.Forall₂ (BlockAt ls) positions blocks := by
  obtain ⟨positions, hsorted, hblocks⟩ := h
  refine ⟨positions.map (k + ·), ?_, ?_, ?_⟩
  · rw [List.pairwise_map]
    exact hsorted.imp fun hlt => Nat.add_lt_add_left hlt k
  · intro p hp
    obtain ⟨q, _, rfl⟩ := List.mem_map.mp hp
    exact Nat.le_add_right k q
  · rw [List.forall₂_map_left_iff]
    exact hblocks.imp fun _ _ hblock => hblock.of_drop

/-- Inside of a block, its lines go on up to the next END line. -/
theorem pem_blocks_in_some (label b64 : String) (ls : List String) :
    pem_blocks_in (some (label, b64)) ls
      = block label (b64 ++ String.join ((ls.takeWhile goes_on).map trim)) ++
        pem_blocks_in none (ls.drop ((ls.takeWhile goes_on).length + 1)) := by
  induction ls generalizing b64 with
  | nil =>
      simp only [pem_blocks_in, List.takeWhile_nil, List.map_nil, String.join_nil,
        String.append_empty, List.drop_nil, List.append_nil]
  | cons line ls ih =>
      -- the block ends at the first line that does not go on
      by_cases hend : starts_with (trim line) "-----END " = true
      · have hgoes : goes_on line = false := by rw [goes_on, hend, Bool.not_true]
        rw [pem_blocks_in, if_pos hend, List.takeWhile_cons_of_neg (by rw [hgoes]; decide),
          List.map_nil, String.join_nil, String.append_empty]
        rfl
      · have hgoes : goes_on line = true := by
          rw [goes_on, Bool.eq_false_iff.mpr hend, Bool.not_false]
        rw [pem_blocks_in, if_neg hend, ih, List.takeWhile_cons_of_pos hgoes, List.map_cons,
          String.join_cons, String.append_assoc]
        rfl

/-- A BEGIN line gives its block, where its text is base64, and the splitter goes on behind
it. -/
theorem pem_blocks_in_begin {line label : String} {ls : List String}
    (h : begin_label line = some label) :
    pem_blocks_in none (line :: ls)
      = block label (String.join ((between (line :: ls) 0).map trim)) ++
        pem_blocks_in none ((line :: ls).drop ((between (line :: ls) 0).length + 2)) := by
  simp only [pem_blocks_in, h, pem_blocks_in_some, String.empty_append]
  rfl

/-- **What is found was there.** -/
theorem pem_blocks_in_found (ls : List String) : Found ls (pem_blocks_in none ls) := by
  induction hn : ls.length using Nat.strong_induction_on generalizing ls with
  | _ n ih =>
    rcases ls with _ | ⟨line, ls⟩
    · exact ⟨[], .nil, .nil⟩
    cases hlabel : begin_label line with
    | none =>
        -- the next line
        have hnext : ls.length < n := by
          rw [← hn, List.length_cons]
          omega
        obtain ⟨positions, hsorted, _, hblocks⟩ := Found.of_drop (show Found ((line :: ls).drop 1) _ from
          ih ls.length hnext ls rfl)
        refine ⟨positions, hsorted, ?_⟩
        simp only [pem_blocks_in, hlabel]
        exact hblocks
    | some label =>
        -- the next line behind the block
        rw [pem_blocks_in_begin hlabel]
        generalize hk : (between (line :: ls) 0).length + 2 = k
        have hnext : ((line :: ls).drop k).length < n := by
          rw [List.length_drop, ← hn, List.length_cons]
          omega
        obtain ⟨positions, hsorted, hbehind, hblocks⟩ :=
          Found.of_drop (ih _ hnext ((line :: ls).drop k) rfl)
        cases hdecode : base64.decode (String.join ((between (line :: ls) 0).map trim)).toList with
        | none =>
            refine ⟨positions, hsorted, ?_⟩
            rw [block, hdecode]
            exact hblocks
        | some der =>
            refine ⟨0 :: positions, List.pairwise_cons.mpr ⟨fun p hp => ?_, hsorted⟩, ?_⟩
            · have hle := hbehind p hp
              omega
            · rw [block, hdecode]
              exact .cons ⟨⟨line, rfl, begin_label_eq_some hlabel⟩, hdecode⟩ hblocks

/-- **PEM splitting.** The blocks of a rendered text are the ones that were rendered, in their
order. Of any text, each block that is returned is under a BEGIN line of its own, and is what the
lines up to the next END line decode to. -/
theorem pem_blocks_exact :
    (∀ text lines blocks, Ended text lines → Rendered lines blocks → pem_blocks text = blocks) ∧
      ∀ text, Found (lines text) (pem_blocks text) :=
  ⟨fun _ _ _ htext h => pem_blocks_rendered htext h, fun text => pem_blocks_in_found (lines text)⟩

/-- An explanation, and base64 in lines of two. -/
example : pem_blocks "Key 1\r\n-----BEGIN KEY-----\r\n  AQ\r\nID\t\r\n-----END KEY-----\n"
    = [("KEY", [1, 2, 3])] := by decide +kernel

end keystore

end Blapki

/-
PEM text as people write it, and what `ca/keystore.rs` makes of it.

`Layout` says what a PEM text is without saying how it is read: blank lines, and blocks
of a BEGIN line, lines of base64 and an END line, each indented and ended as it may be.
The splitter finds the blocks of every layout. Then what tells the representations
apart: DER is no UTF-8, base64 has no dash.
-/
import Blapki.Keystore
import Mathlib.Data.List.Chain
import Mathlib.Data.List.DropRight

set_option autoImplicit false

namespace Blapki

/-! ## UTF-8

An octet below 128 is a character of its own, so another character begins after it. -/

/-- What may follow an octet of a text in UTF-8. -/
def Follows (x y : UInt8) : Prop := x < 0x80 → y.IsUTF8FirstByte

theorem follows_ofNat {n : Nat} (hle : 128 ≤ n) (hlt : n < 256) (y : UInt8) :
    Follows (UInt8.ofNat n) y := by
  intro h
  have hn := UInt8.lt_iff_toNat_lt.mp h
  rw [UInt8.toNat_ofNat_of_lt' (by simpa using hlt)] at hn
  exact absurd hn (by simpa using hle)

/-- Only the last octet of a character may be below 128. -/
theorem utf8EncodeChar_chain (c : Char) : (String.utf8EncodeChar c).IsChain Follows := by
  unfold String.utf8EncodeChar
  generalize c.val.toNat = v
  dsimp only
  split_ifs
  · exact .singleton _
  · rw [List.isChain_pair]
    exact follows_ofNat (by omega) (by omega) _
  · rw [List.isChain_cons_cons, List.isChain_pair]
    exact ⟨follows_ofNat (by omega) (by omega) _, follows_ofNat (by omega) (by omega) _⟩
  · rw [List.isChain_cons_cons, List.isChain_cons_cons, List.isChain_pair]
    exact ⟨follows_ofNat (by omega) (by omega) _, follows_ofNat (by omega) (by omega) _,
      follows_ofNat (by omega) (by omega) _⟩

/-- A text begins with the first octet of a character. -/
theorem first_byte_of_head {cs : List Char} {y : UInt8}
    (h : y ∈ (cs.flatMap String.utf8EncodeChar).head?) : y.IsUTF8FirstByte := by
  cases cs with
  | nil => cases h
  | cons c cs =>
      have hne : String.utf8EncodeChar c ≠ [] := String.utf8EncodeChar_ne_nil
      rw [List.flatMap_cons, List.head?_append_of_ne_nil _ hne,
        List.head?_eq_getElem?] at h
      obtain ⟨hlt, rfl⟩ := List.getElem?_eq_some_iff.mp h
      exact UInt8.isUTF8FirstByte_getElem_utf8EncodeChar.mpr rfl

theorem utf8_chain (cs : List Char) : (cs.flatMap String.utf8EncodeChar).IsChain Follows := by
  induction cs with
  | nil => exact .nil
  | cons c cs ih =>
      rw [List.flatMap_cons, List.isChain_append]
      refine ⟨utf8EncodeChar_chain c, ih, ?_⟩
      intro x _ y hy _
      exact first_byte_of_head hy

theorem as_bytes_eq (s : String) : s.as_bytes = s.toList.flatMap String.utf8EncodeChar := by
  have hutf8 : s.toByteArray = (s.toList.flatMap String.utf8EncodeChar).toByteArray :=
    String.utf8Encode_toList.symm
  rw [String.as_bytes, hutf8]
  simp

/-- Octets in which one below 128 is followed by one that begins no character are no
text. -/
theorem from_utf8_eq_none {b : Bytes} {x y : UInt8} (h : [x, y] <:+: b) (hx : x < 0x80)
    (hy : ¬ y.IsUTF8FirstByte) : from_utf8 b = none := by
  by_contra hne
  obtain ⟨s, hs⟩ := Option.ne_none_iff_exists'.mp hne
  have hb : s.as_bytes = b := by
    unfold from_utf8 String.fromUTF8? at hs
    split_ifs at hs with hvalid
    rw [← Option.some.inj hs]
    rfl
  have hchain : b.IsChain Follows := by
    rw [← hb, as_bytes_eq]
    exact utf8_chain s.toList
  have hpair := hchain.infix h
  exact hy (List.isChain_pair.mp hpair hx)

/-! ## Lines

`str::lines` takes the carriage return off a line and drops an empty rest. The splitter
trims every line, so to it a text is what stands between the line feeds. -/

/-- What stands between the line feeds of a text; a carriage return before one is left,
as white space at the end of its line. -/
def raw_lines (text : String) : List String := (text.toList.splitOn '\n').map String.ofList

/-- Lines put together are found again. -/
theorem raw_lines_intercalate {ls : List String} (h : ∀ l ∈ ls, '\n' ∉ l.toList) (hne : ls ≠ []) :
    raw_lines ("\n".intercalate ls) = ls := by
  have hsplit : ("\n".intercalate ls).toList.splitOn '\n' = ls.map String.toList := by
    rw [String.toList_intercalate]
    apply List.splitOn_intercalate
    · intro l hl
      obtain ⟨line, hline, rfl⟩ := List.mem_map.mp hl
      exact h line hline
    · rwa [Ne, List.map_eq_nil_iff]
  rw [raw_lines, hsplit, List.map_map]
  simp only [Function.comp_def, String.ofList_toList, List.map_id']

/-- White space at the end is trimmed. -/
theorem trim_concat (l : List Char) {c : Char} (hc : is_whitespace c = true) :
    trim (String.ofList (l ++ [c])) = trim (String.ofList l) := by
  simp only [trim, String.toList_ofList, List.dropWhile_append]
  by_cases hl : (l.dropWhile is_whitespace).isEmpty = true
  · rw [if_pos hl, List.isEmpty_iff.mp hl, List.dropWhile_cons_of_pos hc]
    rfl
  · rw [if_neg hl, List.reverse_append, List.reverse_singleton, List.singleton_append,
      List.dropWhile_cons_of_pos hc]

/-- What is left of a line without the carriage return. -/
theorem trim_line (l : List Char) :
    trim (String.ofList (if l.getLast? = some '\r' then l.dropLast else l))
      = trim (String.ofList l) := by
  by_cases hcr : l.getLast? = some '\r'
  · rw [if_pos hcr]
    obtain ⟨l', rfl⟩ := List.getLast?_eq_some_iff.mp hcr
    rw [List.dropLast_concat, trim_concat l' (by decide)]
  · rw [if_neg hcr]

/-- To one who trims them, the lines of a text are what stands between the line feeds,
up to an empty one at the end. -/
theorem trim_lines (text : String) :
    (raw_lines text).map trim = (lines text).map trim ∨
      (raw_lines text).map trim = (lines text).map trim ++ [""] := by
  have hne : text.toList.splitOn '\n' ≠ [] := List.splitOn_ne_nil _ _
  rw [raw_lines, lines]
  generalize text.toList.splitOn '\n' = parts at hne ⊢
  obtain ⟨init, last, rfl⟩ : ∃ init last, parts = init ++ [last] :=
    ⟨_, _, (List.dropLast_append_getLast hne).symm⟩
  have hinit : init.map (trim ∘ String.ofList ∘ fun l =>
      if l.getLast? = some '\r' then l.dropLast else l) = init.map (trim ∘ String.ofList) :=
    List.map_congr_left fun l _ => trim_line l
  simp only [List.dropLast_concat, List.getLast?_concat, List.map_append, List.map_map, hinit]
  -- a text that ends in a line break has one more raw line, which is empty
  by_cases hlast : last = []
  · right
    rw [hlast, Option.filter_some, if_neg (by decide), Option.toList_none, List.map_nil,
      List.append_nil]
    rfl
  · left
    rw [Option.filter_some, if_pos (decide_eq_true hlast), Option.toList_some]

namespace keystore

/-- The splitter trims every line. -/
theorem pem_blocks_in_congr {open_block : Option (String × String)} {ls ls' : List String}
    (h : ls.map trim = ls'.map trim) : pem_blocks_in open_block ls = pem_blocks_in open_block ls' := by
  induction ls generalizing open_block ls' with
  | nil =>
      rw [List.map_nil] at h
      rw [List.map_eq_nil_iff.mp h.symm]
  | cons l ls ih =>
      obtain ⟨l', ls'', rfl, hl, hls⟩ := List.map_eq_cons_iff.mp h.symm
      -- lines are only ever looked at trimmed
      have hlabel : begin_label l' = begin_label l := by rw [begin_label, begin_label, hl]
      cases open_block with
      | none =>
          simp only [pem_blocks_in, hlabel]
          split
          · exact ih hls.symm
          · exact ih hls.symm
      | some block =>
          simp only [pem_blocks_in, hl]
          split
          · rw [ih hls.symm]
          · exact ih hls.symm

/-- An empty line at the end changes nothing. -/
theorem pem_blocks_in_concat {open_block : Option (String × String)} (ls : List String) :
    pem_blocks_in open_block (ls ++ [""]) = pem_blocks_in open_block ls := by
  have hlabel : begin_label "" = none := by decide
  induction ls generalizing open_block with
  | nil =>
      cases open_block with
      | none => simp only [List.nil_append, pem_blocks_in, hlabel]
      | some block =>
          have hend : starts_with "" "-----END " = false := by decide
          have htrim : trim "" = "" := by decide
          simp only [List.nil_append, pem_blocks_in, hend, htrim, Bool.false_eq_true, if_false,
            String.append_empty]
  | cons l ls ih =>
      cases open_block with
      | none => simp only [List.cons_append, pem_blocks_in, ih]
      | some block => simp only [List.cons_append, pem_blocks_in, ih]

theorem pem_blocks_eq (text : String) : pem_blocks text = pem_blocks_in none (raw_lines text) := by
  rw [pem_blocks]
  rcases trim_lines text with h | h
  · exact (pem_blocks_in_congr h).symm
  · have hconcat : (raw_lines text).map trim = (lines text ++ [""]).map trim := by
      rw [h, List.map_append]
      rfl
    rw [pem_blocks_in_congr hconcat, pem_blocks_in_concat]

end keystore

/-! ## Layouts -/

/-- The blocks of a PEM text, as its lines have them: a label, and the text of the lines
under it without their indentation. How wide a line is, how far it is indented and where
blank lines stand is left open. -/
inductive Layout : List String → List (String × String) → Prop
  | nil : Layout [] []
  | blank {line : String} {lines : List String} {blocks : List (String × String)} :
      trim line = "" → Layout lines blocks → Layout (line :: lines) blocks
  | block {first last label : String} {body lines : List String}
      {blocks : List (String × String)} :
      trim first = "-----BEGIN " ++ label ++ "-----" →
      (∀ line ∈ body, starts_with (trim line) "-----END " = false) →
      trim last = "-----END " ++ label ++ "-----" → Layout lines blocks →
      Layout (first :: (body ++ last :: lines)) ((label, String.join (body.map trim)) :: blocks)

theorem Layout.block_eq {first last label text : String} {body lines : List String}
    {blocks : List (String × String)} (hfirst : trim first = "-----BEGIN " ++ label ++ "-----")
    (hbody : ∀ line ∈ body, starts_with (trim line) "-----END " = false)
    (hlast : trim last = "-----END " ++ label ++ "-----")
    (htext : String.join (body.map trim) = text) (h : Layout lines blocks) :
    Layout (first :: (body ++ last :: lines)) ((label, text) :: blocks) := by
  rw [← htext]
  exact .block hfirst hbody hlast h

/-- A text laid out as these blocks. -/
def PemText (text : String) (blocks : List (String × String)) : Prop :=
  Layout (raw_lines text) blocks

namespace keystore

theorem starts_with_append (p s : String) : starts_with (p ++ s) p = true := by
  rw [starts_with, String.toList_append]
  exact List.isPrefixOf_iff_prefix.mpr (List.prefix_append _ _)

theorem begin_label_begin {line label : String}
    (h : trim line = "-----BEGIN " ++ label ++ "-----") : begin_label line = some label := by
  have hprefix : strip_prefix (trim line) "-----BEGIN " = some (label ++ "-----") := by
    rw [h, strip_prefix, String.append_assoc, String.toList_append,
      List.dropPrefix?_append_of_beq _ (beq_self_eq_true _), Option.map_some, String.ofList_toList]
  have hsuffix : strip_suffix (label ++ "-----") "-----" = some label := by
    have hdrop : (label.toList ++ "-----".toList).dropSuffix? "-----".toList = some label.toList :=
      List.dropSuffix?_eq_some_iff.mpr ⟨_, rfl, beq_self_eq_true _⟩
    rw [strip_suffix, String.toList_append, hdrop, Option.map_some, String.ofList_toList]
  rw [begin_label, hprefix]
  exact hsuffix

/-- Inside of a block, its lines are put together up to the one that ends it. -/
theorem pem_blocks_in_body {label b64 last : String} {body lines : List String}
    (hbody : ∀ line ∈ body, starts_with (trim line) "-----END " = false)
    (hlast : starts_with (trim last) "-----END " = true) :
    pem_blocks_in (some (label, b64)) (body ++ last :: lines)
      = block label (b64 ++ String.join (body.map trim)) ++ pem_blocks_in none lines := by
  induction body generalizing b64 with
  | nil =>
      rw [List.nil_append, pem_blocks_in, if_pos hlast, List.map_nil, String.join_nil,
        String.append_empty]
  | cons line body ih =>
      have hline := hbody line List.mem_cons_self
      rw [List.cons_append, pem_blocks_in, hline, if_neg Bool.false_ne_true,
        ih fun l hl => hbody l (List.mem_cons_of_mem line hl), List.map_cons, String.join_cons,
        String.append_assoc]

/-- The splitter finds the blocks of every layout. -/
theorem pem_blocks_in_layout {lines : List String} {blocks : List (String × String)}
    (h : Layout lines blocks) :
    pem_blocks_in none lines = blocks.flatMap fun b => block b.1 b.2 := by
  induction h with
  | nil => rfl
  | @blank line _ _ hline _ ih =>
      have hlabel : begin_label line = none := by
        rw [begin_label, hline]
        decide
      simp only [pem_blocks_in, hlabel, ih]
  | @block _ _ label _ _ _ hfirst hbody hlast _ ih =>
      have hend := starts_with_append "-----END " (label ++ "-----")
      rw [← String.append_assoc, ← hlast] at hend
      simp only [pem_blocks_in, begin_label_begin hfirst, pem_blocks_in_body hbody hend,
        String.empty_append, ih, List.flatMap_cons]

theorem pem_blocks_layout {text : String} {blocks : List (String × String)}
    (h : PemText text blocks) : pem_blocks text = blocks.flatMap fun b => block b.1 b.2 := by
  rw [pem_blocks_eq, pem_blocks_in_layout h]

end keystore

/-! ## Telling them apart -/

theorem trim_prefix (s : String) : (trim s).toList <+: s.toList.dropWhile is_whitespace := by
  rw [trim, String.toList_ofList]
  exact List.rdropWhile_prefix is_whitespace _

/-- A blank line is white space. -/
theorem dropWhile_of_trim {s : String} (h : trim s = "") :
    s.toList.dropWhile is_whitespace = [] := by
  have hnil : (s.toList.dropWhile is_whitespace).rdropWhile is_whitespace = [] := by
    have hlist := congrArg String.toList h
    rwa [trim, String.toList_ofList] at hlist
  have hall := List.rdropWhile_eq_nil_iff.mp hnil
  by_contra hne
  have hhead := List.head_dropWhile_not is_whitespace hne
  rw [hall _ (List.head_mem hne)] at hhead
  exact Bool.noConfusion hhead

theorem prefix_intercalate (sep l : List Char) (ls : List (List Char)) :
    l <+: sep.intercalate (l :: ls) := by
  cases ls with
  | nil => rw [List.intercalate_singleton]
  | cons l' ls =>
      rw [List.intercalate_cons_cons, List.append_assoc]
      exact List.prefix_append _ _

/-- The first thing to see in a PEM text is the beginning of a block. -/
theorem begin_of_layout {lines : List String} {blocks : List (String × String)}
    (h : Layout lines blocks) (hne : blocks ≠ []) :
    "-----BEGIN ".toList
      <+: (['\n'].intercalate (lines.map String.toList)).dropWhile is_whitespace := by
  induction h with
  | nil => exact absurd rfl hne
  -- a blank line is white space in front of the first block
  | @blank line lines _ hline hlines ih =>
      obtain ⟨l, ls, rfl⟩ : ∃ l ls, lines = l :: ls := by
        cases hlines with
        | nil => exact absurd rfl hne
        | blank => exact ⟨_, _, rfl⟩
        | block => exact ⟨_, _, rfl⟩
      rw [List.map_cons, List.map_cons, List.intercalate_cons_cons, List.append_assoc,
        List.dropWhile_append, dropWhile_of_trim hline, List.isEmpty_nil, if_pos rfl,
        List.singleton_append, List.dropWhile_cons_of_pos (by decide)]
      exact ih hne
  | @block first last label body lines _ hfirst _ _ _ _ =>
      have hbegin : "-----BEGIN ".toList <+: first.toList.dropWhile is_whitespace := by
        have htrim := trim_prefix first
        rw [hfirst, String.append_assoc, String.toList_append] at htrim
        exact (List.prefix_append _ _).trans htrim
      -- so the white space ends in the first line, before any line break
      have hnonempty : ¬ (first.toList.dropWhile is_whitespace).isEmpty = true := by
        intro hempty
        rw [List.isEmpty_iff.mp hempty] at hbegin
        exact absurd (List.prefix_nil.mp hbegin) (by decide)
      obtain ⟨rest, hrest⟩ := prefix_intercalate ['\n'] first.toList
        ((body ++ last :: lines).map String.toList)
      rw [List.map_cons, ← hrest, List.dropWhile_append, if_neg hnonempty]
      exact hbegin.trans (List.prefix_append _ _)

theorem begin_of_text {text : String} {blocks : List (String × String)} (h : PemText text blocks)
    (hne : blocks ≠ []) : "-----BEGIN ".toList <+: text.toList.dropWhile is_whitespace := by
  have hbegin := begin_of_layout h hne
  have hlists : (raw_lines text).map String.toList = text.toList.splitOn '\n' := by
    simp only [raw_lines, List.map_map, Function.comp_def, String.toList_ofList, List.map_id']
  rwa [hlists, List.intercalate_splitOn] at hbegin

namespace keystore

theorem starts_with_text {text : String} {blocks : List (String × String)}
    (h : PemText text blocks) (hne : blocks ≠ []) :
    starts_with (trim_start text) "-----BEGIN" = true := by
  have hshort : "-----BEGIN".toList <+: "-----BEGIN ".toList := ⟨[' '], by decide⟩
  have hlist : (trim_start text).toList = text.toList.dropWhile is_whitespace := by
    rw [trim_start, String.toList_ofList]
  rw [starts_with, hlist]
  exact List.isPrefixOf_iff_prefix.mpr (hshort.trans (begin_of_text h hne))

/-- A PEM text is taken as it is. -/
theorem material_to_bytes_text (X : Crates) {text : String} {blocks : List (String × String)}
    (h : PemText text blocks) (hne : blocks ≠ []) (what : String) :
    material_to_bytes X text what = .ok text.as_bytes := by
  rw [material_to_bytes, if_pos (starts_with_text h hne)]

theorem contains_text {text : String} {blocks : List (String × String)}
    (h : PemText text blocks) (hne : blocks ≠ []) : contains text "-----BEGIN " = true := by
  rw [contains, List.any_eq_true]
  exact ⟨text.toList.dropWhile is_whitespace,
    (List.mem_tails _ _).mpr (List.dropWhile_suffix _),
    List.isPrefixOf_iff_prefix.mpr (begin_of_text h hne)⟩

/-- A PEM text is split. -/
theorem as_pem_blocks_text {text : String} {blocks : List (String × String)}
    (h : PemText text blocks) (hne : blocks ≠ []) :
    as_pem_blocks text.as_bytes = some (blocks.flatMap fun b => block b.1 b.2) := by
  rw [as_pem_blocks, from_utf8_as_bytes, ← pem_blocks_layout h]
  exact if_pos (contains_text h hne)

/-- Lines in front of the first block are passed over. -/
theorem pem_blocks_in_explained {pre lines : List String}
    (h : ∀ line ∈ pre, begin_label line = none) :
    pem_blocks_in none (pre ++ lines) = pem_blocks_in none lines := by
  induction pre with
  | nil => rfl
  | cons line pre ih =>
      rw [List.forall_mem_cons] at h
      simp only [List.cons_append, pem_blocks_in, h.1]
      exact ih h.2

/-- A PEM text with an explanation in front of it is split just so. -/
theorem as_pem_blocks_explained {pre text : String} {blocks : List (String × String)}
    (hpre : ∀ line ∈ raw_lines pre, begin_label line = none) (h : PemText text blocks)
    (hne : blocks ≠ []) :
    as_pem_blocks (pre ++ "\n" ++ text).as_bytes = some (blocks.flatMap fun b => block b.1 b.2) := by
  have hlist : (pre ++ "\n" ++ text).toList = pre.toList ++ '\n' :: text.toList := by
    rw [String.toList_append, String.toList_append, List.append_assoc]
    rfl
  have hlines : raw_lines (pre ++ "\n" ++ text) = raw_lines pre ++ raw_lines text := by
    rw [raw_lines, hlist, List.splitOn_append_cons_self, List.map_append]
    rfl
  -- the boundary is in the text itself, whatever stands before it
  have hcontains : contains (pre ++ "\n" ++ text) "-----BEGIN " = true := by
    have htext := contains_text h hne
    rw [contains, List.any_eq_true] at htext ⊢
    obtain ⟨t, ht, hprefix⟩ := htext
    refine ⟨t, (List.mem_tails _ _).mpr (((List.mem_tails _ _).mp ht).trans ?_), hprefix⟩
    rw [hlist]
    exact (List.suffix_cons _ _).trans (List.suffix_append _ _)
  have hblocks : pem_blocks (pre ++ "\n" ++ text) = blocks.flatMap fun b => block b.1 b.2 := by
    rw [pem_blocks_eq, hlines, pem_blocks_in_explained hpre, pem_blocks_in_layout h]
  rw [as_pem_blocks, from_utf8_as_bytes, ← hblocks]
  exact if_pos hcontains

/-- Base64 is a line of its own. -/
theorem trim_encode (b : Bytes) : trim (base64.encode b) = base64.encode b := by
  have hdrop : ∀ cs : List Char, (∀ c ∈ cs, c ∈ base64.digits b) →
      cs.dropWhile is_whitespace = cs := by
    intro cs hcs
    rw [List.dropWhile_eq_self_iff]
    intro hlen
    rw [(base64_character (hcs _ (List.getElem_mem hlen))).1]
    exact Bool.false_ne_true
  rw [trim, base64.encode, String.toList_ofList, hdrop _ fun _ hc => hc,
    hdrop _ fun _ hc => List.mem_reverse.mp hc, List.reverse_reverse]

theorem lines_encode (b : Bytes) : ∀ line ∈ [base64.encode b],
    starts_with (trim line) "-----END " = false ∧ '\n' ∉ line.toList := by
  intro line hline
  have hlist : (base64.encode b).toList = base64.digits b := by
    rw [base64.encode, String.toList_ofList]
  rw [List.mem_singleton.mp hline, trim_encode]
  constructor
  · refine starts_with_eq_false (c := '-') (by decide) ?_
    rw [hlist]
    exact fun hmem => (base64_character hmem).2 rfl
  · rw [hlist]
    intro hmem
    exact absurd (base64_character hmem).1 (by decide)

/-- What is no UTF-8 is DER. -/
theorem as_pem_blocks_eq_none {bytes : Bytes} (h : from_utf8 bytes = none) :
    as_pem_blocks bytes = none := by
  rw [as_pem_blocks, h]
  rfl

end keystore

end Blapki

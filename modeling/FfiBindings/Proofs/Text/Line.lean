import FfiBindings.Text.Line
import Mathlib.Tactic.Common

/-!
Lines of a text that is put together from parts. A line feed ends a line whatever comes before and after
it (`linesFrom_append_lineFeed`); a line end after a text leaves the lines of the text as they are and
adds empty ones at most (`linesFrom_append_ending`), also where the text ends in a carriage return that
the line end makes into one boundary with itself. Lines that are written with a line end after each of
them are read as the same lines (`linesFrom_written`).
-/

set_option autoImplicit false
set_option relaxedAutoImplicit false

namespace FfiBindings.Text

/-- The two ways in which the lines that are written end. -/
def IsEnding (ending : List Char) : Prop :=
  ending = ['\n'] ∨ ending = ['\r', '\n']

/-- No character of the line ends a line. -/
def IsLine (line : List Char) : Prop :=
  ∀ c ∈ line, isLineBoundary c = false

-- by the characters of the line, not by all characters that there are
instance (line : List Char) : Decidable (IsLine line) :=
  decidable_of_iff ((line.all fun c => !isLineBoundary c) = true) (by simp [IsLine])

theorem isLineBoundary_lineFeed : isLineBoundary '\n' = true := by decide

theorem isLineBoundary_carriageReturn : isLineBoundary '\r' = true := by decide

/-- One step of the division into lines, where no carriage return and line feed stand together. -/
theorem linesFrom_cons {line : Option (List Char)} {c : Char} {rest : List Char}
    (h : ∀ tail, c = '\r' → rest ≠ '\n' :: tail) :
    linesFrom line (c :: rest) =
      if isLineBoundary c then (line.getD []).reverse :: linesFrom none rest
      else linesFrom (some (c :: line.getD [])) rest := by
  rw [linesFrom.eq_def]
  split
  · simp_all
  · simp_all
  · rename_i heq
    obtain ⟨rfl, rfl⟩ := by simpa using heq
    exact absurd rfl (h _ rfl)
  · rename_i heq
    obtain ⟨rfl, rfl⟩ := by simpa using heq
    rfl

theorem linesFrom_lineFeed (line : Option (List Char)) (rest : List Char) :
    linesFrom line ('\n' :: rest) = (line.getD []).reverse :: linesFrom none rest := by
  rw [linesFrom_cons (by simp), if_pos isLineBoundary_lineFeed]

theorem linesFrom_carriageReturn_lineFeed (line : Option (List Char)) (rest : List Char) :
    linesFrom line ('\r' :: '\n' :: rest) = (line.getD []).reverse :: linesFrom none rest := by
  cases line <;> rfl

/-- How the division into lines goes on after the first character, when more text follows: unless that
character is a carriage return which a line feed follows, it is taken by itself. -/
theorem linesFrom_cons_append {line : Option (List Char)} {c : Char} {front more : List Char}
    (hpair : ∀ tail, c = '\r' → front ≠ '\n' :: tail) (hlast : c = '\r' → front ≠ []) :
    linesFrom line (c :: (front ++ more)) =
      if isLineBoundary c then (line.getD []).reverse :: linesFrom none (front ++ more)
      else linesFrom (some (c :: line.getD [])) (front ++ more) := by
  refine linesFrom_cons fun tail hc heq => ?_
  cases front with
  | nil => exact hlast hc rfl
  | cons next front =>
    obtain ⟨rfl, -⟩ := by simpa using heq
    exact hpair front hc rfl

/-- The lines before and after a line feed have nothing to do with each other. -/
theorem linesFrom_append_lineFeed (line : Option (List Char)) (front rest : List Char) :
    linesFrom line (front ++ '\n' :: rest) =
      linesFrom line (front ++ ['\n']) ++ linesFrom none rest := by
  fun_induction linesFrom line front with
  | case1 => simp [linesFrom_lineFeed, linesFrom]
  | case2 => simp [linesFrom_lineFeed, linesFrom]
  | case3 line front ih => simp [linesFrom_carriageReturn_lineFeed, ih]
  | case4 line c front hpair hboundary ih =>
    by_cases hlast : c = '\r' ∧ front = []
    · obtain ⟨rfl, rfl⟩ := hlast
      simp [linesFrom_carriageReturn_lineFeed, linesFrom]
    · have hne : c = '\r' → front ≠ [] := fun hc hnil => hlast ⟨hc, hnil⟩
      rw [List.cons_append, List.cons_append, linesFrom_cons_append hpair hne,
        linesFrom_cons_append hpair hne, if_pos hboundary, if_pos hboundary, ih, List.cons_append]
  | case5 line c front hpair hboundary ih =>
    have hne : c = '\r' → front ≠ [] := by
      rintro rfl
      exact absurd isLineBoundary_carriageReturn hboundary
    rw [List.cons_append, List.cons_append, linesFrom_cons_append hpair hne,
      linesFrom_cons_append hpair hne, if_neg hboundary, if_neg hboundary, ih]

theorem linesFrom_append_ending_append (line : Option (List Char)) (front : List Char)
    {ending : List Char} (hending : IsEnding ending) (rest : List Char) :
    linesFrom line (front ++ (ending ++ rest)) =
      linesFrom line (front ++ ending) ++ linesFrom none rest := by
  rcases hending with rfl | rfl
  · exact linesFrom_append_lineFeed line front rest
  · simpa using linesFrom_append_lineFeed line (front ++ ['\r']) rest

/-- A line end after a text ends the line that is begun, if there is one, or else an empty line. -/
theorem linesFrom_append_ending (line : Option (List Char)) (front : List Char) {ending : List Char}
    (hending : IsEnding ending) :
    ∃ blanks, (∀ blank ∈ blanks, blank = []) ∧
      linesFrom line (front ++ ending) = linesFrom line front ++ blanks := by
  fun_induction linesFrom line front with
  | case1 =>
    refine ⟨[[]], by simp, ?_⟩
    rcases hending with rfl | rfl <;> rfl
  | case2 line =>
    refine ⟨[], by simp, ?_⟩
    rcases hending with rfl | rfl <;>
      simp [linesFrom_lineFeed, linesFrom_carriageReturn_lineFeed, linesFrom]
  | case3 line front ih =>
    obtain ⟨blanks, hblanks, heq⟩ := ih
    refine ⟨blanks, hblanks, ?_⟩
    rw [List.cons_append, List.cons_append, linesFrom_carriageReturn_lineFeed, heq, List.cons_append]
  | case4 line c front hpair hboundary ih =>
    by_cases hlast : c = '\r' ∧ front = []
    · obtain ⟨rfl, rfl⟩ := hlast
      rcases hending with rfl | rfl
      · exact ⟨[], by simp, by simp [linesFrom_carriageReturn_lineFeed, linesFrom]⟩
      · refine ⟨[[]], by simp, ?_⟩
        rw [List.singleton_append, linesFrom_cons (by simp), if_pos hboundary,
          linesFrom_carriageReturn_lineFeed]
        simp [linesFrom]
    · have hne : c = '\r' → front ≠ [] := fun hc hnil => hlast ⟨hc, hnil⟩
      obtain ⟨blanks, hblanks, heq⟩ := ih
      refine ⟨blanks, hblanks, ?_⟩
      rw [List.cons_append, linesFrom_cons_append hpair hne, if_pos hboundary, heq, List.cons_append]
  | case5 line c front hpair hboundary ih =>
    have hne : c = '\r' → front ≠ [] := by
      rintro rfl
      exact absurd isLineBoundary_carriageReturn hboundary
    obtain ⟨blanks, hblanks, heq⟩ := ih
    refine ⟨blanks, hblanks, ?_⟩
    rw [List.cons_append, linesFrom_cons_append hpair hne, if_neg hboundary, heq]

theorem linesFrom_ending (line : Option (List Char)) {ending : List Char} (hending : IsEnding ending)
    (rest : List Char) :
    linesFrom line (ending ++ rest) = (line.getD []).reverse :: linesFrom none rest := by
  rcases hending with rfl | rfl
  · exact linesFrom_lineFeed line rest
  · exact linesFrom_carriageReturn_lineFeed line rest

theorem linesFrom_cons_inside {line : Option (List Char)} {c : Char} {rest : List Char}
    (hc : isLineBoundary c = false) :
    linesFrom line (c :: rest) = linesFrom (some (c :: line.getD [])) rest := by
  have hreturn (tail : List Char) (heq : c = '\r') : rest ≠ '\n' :: tail := by
    rw [heq, isLineBoundary_carriageReturn] at hc
    exact absurd hc (by simp)
  rw [linesFrom_cons hreturn, hc, if_neg (by simp)]

/-- A line goes on from where it is begun up to its end. -/
theorem linesFrom_line (begun : Option (List Char)) {line ending : List Char} (hline : IsLine line)
    (hending : IsEnding ending) (rest : List Char) :
    linesFrom begun (line ++ (ending ++ rest)) =
      ((begun.getD []).reverse ++ line) :: linesFrom none rest := by
  induction line generalizing begun with
  | nil => simp [linesFrom_ending _ hending]
  | cons c line ih =>
    rw [List.cons_append, linesFrom_cons_inside (hline c (by simp)),
      ih _ fun d hd => hline d (by simp [hd])]
    simp

/-- Lines that are written with a line end after each are read as they are. -/
theorem linesFrom_written {lines : List (List Char)} {ending : List Char}
    (hlines : ∀ line ∈ lines, IsLine line) (hending : IsEnding ending) :
    linesFrom none (lines.flatMap (· ++ ending)) = lines := by
  induction lines with
  | nil => rfl
  | cons line lines ih =>
    rw [List.flatMap_cons, List.append_assoc, linesFrom_line none (hlines line (by simp)) hending,
      ih fun other hother => hlines other (by simp [hother])]
    rfl

/-- A line that is written with a line end behind it, and behind every line before it, is read as it is, whatever the
others hold. -/
theorem mem_linesFrom_written {lines : List (List Char)} {line ending : List Char} (hmem : line ∈ lines)
    (hline : IsLine line) (hending : IsEnding ending) :
    line ∈ linesFrom none (lines.flatMap (· ++ ending)) := by
  obtain ⟨before, after, rfl⟩ := List.append_of_mem hmem
  have hhere (rest : List Char) : line ∈ linesFrom none (line ++ (ending ++ rest)) := by
    rw [linesFrom_line none hline hending]
    exact List.mem_cons_self
  rw [List.flatMap_append, List.flatMap_cons, List.append_assoc]
  rcases List.eq_nil_or_concat before with rfl | ⟨earlier, last, rfl⟩
  · exact hhere _
  · rw [List.concat_eq_append, List.flatMap_append, List.flatMap_singleton, List.append_assoc, List.append_assoc,
      ← List.append_assoc, linesFrom_append_ending_append none _ hending]
    exact List.mem_append_right _ (hhere _)

/-- What a text is divided into holds no line boundary. -/
theorem isLine_of_mem_linesFrom {begun : Option (List Char)} {text line : List Char}
    (hbegun : IsLine (begun.getD [])) (hmem : line ∈ linesFrom begun text) : IsLine line := by
  have hreverse {front : List Char} (hfront : IsLine front) : IsLine front.reverse := fun c hc =>
    hfront c (List.mem_reverse.1 hc)
  have hnone : IsLine ((none : Option (List Char)).getD []) := by simp [IsLine]
  fun_induction linesFrom begun text with
  | case1 => exact absurd hmem List.not_mem_nil
  | case2 front =>
    obtain rfl := List.mem_singleton.1 hmem
    exact hreverse hbegun
  | case3 begun rest ih =>
    rcases List.mem_cons.1 hmem with rfl | hmem
    · exact hreverse hbegun
    · exact ih hnone hmem
  | case4 begun c rest _ hboundary ih =>
    rcases List.mem_cons.1 hmem with rfl | hmem
    · exact hreverse hbegun
    · exact ih hnone hmem
  | case5 begun c rest _ hinside ih =>
    refine ih ?_ hmem
    intro d hd
    rcases List.mem_cons.1 hd with rfl | hd
    · exact Bool.eq_false_iff.2 hinside
    · exact hbegun d hd

/-! ### The same for strings -/

theorem splitLines_empty : splitLines "" = [] := rfl

/-- What follows a line end after a text is divided into lines by itself. -/
theorem splitLines_append_ending (text : String) {ending : String} (hending : IsEnding ending.toList)
    (rest : String) :
    ∃ blanks, (∀ blank ∈ blanks, blank = "") ∧
      splitLines (text ++ ending ++ rest) = splitLines text ++ blanks ++ splitLines rest := by
  obtain ⟨blanks, hblanks, heq⟩ := linesFrom_append_ending none text.toList hending
  refine ⟨blanks.map .ofList, ?_, ?_⟩
  · intro blank hblank
    obtain ⟨line, hline, rfl⟩ := List.mem_map.1 hblank
    rw [hblanks line hline, String.ofList_nil]
  · rw [splitLines, splitLines, splitLines, String.toList_append, String.toList_append,
      List.append_assoc, linesFrom_append_ending_append none _ hending, heq, List.map_append,
      List.map_append]

/-- Nothing, or lines of which the last one is ended too. -/
def IsWhole (text : String) : Prop :=
  text = "" ∨ text.toList.getLast? = some '\n'

theorem IsWhole.append {first second : String} (hfirst : IsWhole first) (hsecond : IsWhole second) :
    IsWhole (first ++ second) := by
  rcases hsecond with rfl | hlast
  · rwa [String.append_empty]
  · refine .inr ?_
    rw [String.toList_append, List.getLast?_append, hlast, Option.some_or]

/-- What follows lines that are ended is divided into lines by itself. -/
theorem splitLines_append_of_ended {text : String} (hended : text.toList.getLast? = some '\n') (rest : String) :
    splitLines (text ++ rest) = splitLines text ++ splitLines rest := by
  obtain ⟨front, hfront⟩ := List.getLast?_eq_some_iff.1 hended
  rw [splitLines, splitLines, splitLines, String.toList_append, hfront, List.append_assoc,
    List.singleton_append, linesFrom_append_lineFeed, List.map_append]

/-- Only a line feed is encoded so that its last byte is the one of a line feed. -/
theorem eq_lineFeed_of_utf8EncodeChar {c : Char} (h : (String.utf8EncodeChar c).getLast? = some 10) :
    c = '\n' := by
  have hcode : c.val.toNat = 10 := by
    have hbyte (n : Nat) (hmore : UInt8.ofNat (n % 64 + 128) = 10) : False := by
      have hvalue := congrArg UInt8.toNat hmore
      simp only [UInt8.toNat_ofNat', UInt8.reduceToNat] at hvalue
      omega
    unfold String.utf8EncodeChar at h
    dsimp only at h
    split at h
    · rename_i hascii
      have hbyte : UInt8.ofNat c.val.toNat = 10 := Option.some.inj h
      have hvalue := congrArg UInt8.toNat hbyte
      rw [UInt8.toNat_ofNat'] at hvalue
      have hten : (10 : UInt8).toNat = 10 := rfl
      omega
    · split at h
      · exact (hbyte _ (Option.some.inj h)).elim
      · split at h
        · exact (hbyte _ (Option.some.inj h)).elim
        · exact (hbyte _ (Option.some.inj h)).elim
  exact Char.ext (UInt32.toNat_inj.1 hcode)

/-- The last one of some bytes is that of a line feed. -/
def EndsLine (bytes : ByteArray) : Prop :=
  bytes.data.toList.getLast? = some 10

theorem EndsLine.append (front : ByteArray) {last : ByteArray} (h : EndsLine last) : EndsLine (front ++ last) := by
  rw [EndsLine, ByteArray.toList_data_append, List.getLast?_append, h, Option.some_or]

/-- The last byte of a text tells whether it ends in a line feed. -/
theorem endsLine_toUTF8_iff (text : String) :
    EndsLine text.toUTF8 ↔ text.toList.getLast? = some '\n' := by
  have hbytes : text.toUTF8.data.toList = text.toList.flatMap String.utf8EncodeChar := by
    conv_lhs => rw [← String.ofList_toList (s := text)]
    show (String.ofList text.toList).toByteArray.data.toList = _
    rw [String.toByteArray_ofList, List.utf8Encode, List.toList_data_toByteArray]
  rw [EndsLine, hbytes]
  rcases List.eq_nil_or_concat text.toList with hnil | ⟨front, c, hlast⟩
  · rw [hnil]
    simp
  · have hencoded : String.utf8EncodeChar c ≠ [] := by simp
    obtain ⟨byte, hbyte⟩ := Option.isSome_iff_exists.1 (List.getLast?_isSome.2 hencoded)
    rw [hlast, List.concat_eq_append, List.flatMap_append, List.flatMap_singleton, List.getLast?_concat,
      List.getLast?_append, hbyte, Option.some_or, Option.some.injEq, Option.some.injEq]
    constructor
    · rintro rfl
      exact eq_lineFeed_of_utf8EncodeChar hbyte
    · rintro rfl
      exact (Option.some.inj hbyte).symm

theorem EndsLine.append_whole {content : ByteArray} {lines : String} (h : EndsLine content) (hlines : IsWhole lines) :
    EndsLine (content ++ lines.toUTF8) := by
  rcases hlines with rfl | hlast
  · rw [show content ++ "".toUTF8 = content from ByteArray.append_empty]
    exact h
  · exact .append content ((endsLine_toUTF8_iff lines).2 hlast)

theorem toList_intercalate_append {ending : String} {lines : List String} (hlines : lines ≠ []) :
    (ending.intercalate lines ++ ending).toList =
      lines.flatMap fun line => line.toList ++ ending.toList := by
  induction lines with
  | nil => exact absurd rfl hlines
  | cons line lines ih =>
    by_cases hmore : lines = []
    · simp [hmore]
    · rw [String.intercalate_cons_of_ne_nil hmore, String.append_assoc, String.append_assoc,
        String.toList_append, String.toList_append, ih hmore, List.flatMap_cons, List.append_assoc]

/-- Lines that are written with a line end between them and after the last are read as they are. -/
theorem splitLines_written {lines : List String} {ending : String} (hne : lines ≠ [])
    (hlines : ∀ line ∈ lines, IsLine line.toList) (hending : IsEnding ending.toList) :
    splitLines (ending.intercalate lines ++ ending) = lines := by
  have hwritten : linesFrom none (lines.flatMap fun line => line.toList ++ ending.toList) =
      lines.map String.toList := by
    have hchars : ∀ line ∈ lines.map String.toList, IsLine line := by
      intro line hline
      obtain ⟨s, hs, rfl⟩ := List.mem_map.1 hline
      exact hlines s hs
    rw [← linesFrom_written hchars hending, List.flatMap_map]
  rw [splitLines, toList_intercalate_append hne, hwritten, List.map_map]
  simp

theorem mem_splitLines_written {lines : List String} {line ending : String} (hmem : line ∈ lines)
    (hline : IsLine line.toList) (hending : IsEnding ending.toList) :
    line ∈ splitLines (ending.intercalate lines ++ ending) := by
  have hwritten : line.toList ∈ linesFrom none ((lines.map String.toList).flatMap (· ++ ending.toList)) :=
    mem_linesFrom_written (List.mem_map_of_mem hmem) hline hending
  rw [List.flatMap_map] at hwritten
  rw [splitLines, toList_intercalate_append (List.ne_nil_of_mem hmem)]
  exact List.mem_map.2 ⟨line.toList, hwritten, String.ofList_toList⟩

theorem isLine_of_mem_splitLines {text line : String} (hmem : line ∈ splitLines text) : IsLine line.toList := by
  obtain ⟨chars, hchars, rfl⟩ := List.mem_map.1 hmem
  rw [String.toList_ofList]
  exact isLine_of_mem_linesFrom (by simp [IsLine]) hchars

end FfiBindings.Text

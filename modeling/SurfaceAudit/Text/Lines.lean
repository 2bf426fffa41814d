import SurfaceAudit.Text.Class

/-!
# Lines, words and edges

Cutting a text into lines, at single separators or at blanks, and trimming its edges. The cuts
gather what they have seen in reverse, so that long texts need no deep recursion.
-/

namespace SurfaceAudit

/-- A code point that ends a line by itself: the controls for line, column, page, file, group and
record ends, the next-line control, and the line and paragraph separators. -/
def Point.endsLine (p : Point) : Bool :=
  let n := p.val
  (10 ≤ n && n ≤ 13) || (28 ≤ n && n ≤ 30) || n == 0x85 || n == 0x2028 || n == 0x2029

namespace Text

/-- The lines of the rest of a text, after the line begun and the lines done. -/
def linesFrom : Text → Text → List Text → List Text
  | [], [], done => done.reverse
  | [], line, done => (line.reverse :: done).reverse
  | .scalar '\r' :: .scalar '\n' :: r, line, done => linesFrom r [] (line.reverse :: done)
  | c :: r, line, done =>
    if c.endsLine then linesFrom r [] (line.reverse :: done) else linesFrom r (c :: line) done

/-- The lines of a text, without their ends. A carriage return and a line feed after it end one
line; a line end at the end of the text begins no further line. -/
def lines (t : Text) : List Text := linesFrom t [] []

/-- The fields of the rest of a text, after the field begun and the fields done. -/
def fieldsFrom (sep : Point → Bool) : Text → Text → List Text → List Text
  | [], field, done => (field.reverse :: done).reverse
  | c :: r, field, done =>
    if sep c then fieldsFrom sep r [] (field.reverse :: done)
    else fieldsFrom sep r (c :: field) done

/-- The fields between the separators of a text: one more than there are separators. -/
def fields (sep : Point → Bool) (t : Text) : List Text := fieldsFrom sep t [] []

/-- The pieces of a text between line feeds. -/
def rows (t : Text) : List Text := fields (· == '\n') t

/-- The words of a text: its non-empty fields between blanks. -/
def words (t : Text) : List Text := (fields Point.isBlank t).filter (!·.isEmpty)

/-- The text without the code points of a class at its left edge. -/
def trimLeft (p : Point → Bool) (t : Text) : Text := t.dropWhile p

/-- The text without the code points of a class at its right edge. -/
def trimRight (p : Point → Bool) (t : Text) : Text := (t.reverse.dropWhile p).reverse

/-- The text without the code points of a class at its edges. -/
def trim (p : Point → Bool) (t : Text) : Text := trimRight p (trimLeft p t)

/-- The text without blanks at its edges. -/
def strip (t : Text) : Text := trim Point.isBlank t

end Text

end SurfaceAudit

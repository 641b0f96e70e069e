import Spreadsheet.Expr
import Spreadsheet.Decimal

namespace Spreadsheet.Expr

def renderBefore (rest : List Char) : Formula → List Char
  | number n => Decimal.fixed 2 n.toFloat ++ rest
  | blank => rest
  | reference a => a.nameChars ++ rest
  | binary op l r => renderBefore (' ' :: op.symbol :: ' ' :: renderBefore rest r) l

/-- Numbers have two decimals, a blank is empty, and there are no parentheses: a tree that no
text reads as may be written like another one. -/
def render (f : Formula) : List Char :=
  renderBefore [] f

theorem renderBefore_eq (rest : List Char) (f : Formula) :
    renderBefore rest f = f.render ++ rest := by
  induction f generalizing rest with
  | binary op l r ihl ihr =>
    rw [render, renderBefore, renderBefore, ihl, ihr rest, ihl (' ' :: _), ihr []]
    simp
  | _ => simp [render, renderBefore]

theorem render_binary (op : Operator) (l r : Formula) :
    render (binary op l r) = l.render ++ ' ' :: op.symbol :: ' ' :: r.render := by
  rw [render, renderBefore, renderBefore_eq, ← render]

end Spreadsheet.Expr

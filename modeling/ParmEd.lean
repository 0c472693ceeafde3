import ParmEd.Python.Text
import ParmEd.Python.Exceptions
import ParmEd.Python.Number
import ParmEd.Python.Regex
import ParmEd.Python.Dict
import ParmEd.Python.Repr
import ParmEd.Python.Double
import ParmEd.Amber.ParameterSet
import ParmEd.Amber.LineHandlers
import ParmEd.Amber.Parse
import ParmEd.Amber.Write
import ParmEd.Amber.PrintedLines
import ParmEd.Amber.Leaprc
import ParmEd.Amber.Effects
import ParmEd.Amber.Orientation
import ParmEd.Amber.RoundTrip
import ParmEd.Amber.SingleLoad
import ParmEd.Amber.Continuation
import ParmEd.Amber.Constructor
import ParmEd.Amber.TorsionReadBack
import ParmEd.Amber.ImproperReadBack
import ParmEd.Amber.Equivalence
import ParmEd.Tools.Add1264
import ParmEd.Tools.ClosedForm
import ParmEd.Amber.IdFormat
import ParmEd.Tools.ParamFiles

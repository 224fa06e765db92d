import TypedMarkup.Host.Value

/-!
Contract: the names that need not be in scope.

Owns: `builtinValue?`. The constants, classes and functions of the host language are known
everywhere, and names in scope hide them.
-/

namespace TypedMarkup.Host

/-- The classes that can be named without being in scope. -/
def classNames : List String := [
  "bool", "bytearray", "bytes", "classmethod", "complex", "dict", "enumerate", "filter", "float",
  "frozenset", "int", "list", "map", "memoryview", "object", "property", "range", "reversed",
  "set", "slice", "staticmethod", "str", "super", "tuple", "type", "zip", "ArithmeticError",
  "AssertionError", "AttributeError", "BaseException", "BaseExceptionGroup", "BlockingIOError",
  "BrokenPipeError", "BufferError", "BytesWarning", "ChildProcessError",
  "ConnectionAbortedError", "ConnectionError", "ConnectionRefusedError", "ConnectionResetError",
  "DeprecationWarning", "EOFError", "EncodingWarning", "Exception", "ExceptionGroup",
  "FileExistsError", "FileNotFoundError", "FloatingPointError", "FutureWarning",
  "GeneratorExit", "ImportError", "ImportWarning", "IndentationError", "IndexError",
  "InterruptedError", "IsADirectoryError", "KeyError", "KeyboardInterrupt", "LookupError",
  "MemoryError", "ModuleNotFoundError", "NameError", "NotADirectoryError",
  "NotImplementedError", "OSError", "OverflowError", "PendingDeprecationWarning",
  "PermissionError", "ProcessLookupError", "RecursionError", "ReferenceError",
  "ResourceWarning", "RuntimeError", "RuntimeWarning", "StopAsyncIteration", "StopIteration",
  "SyntaxError", "SyntaxWarning", "SystemError", "SystemExit", "TabError", "TimeoutError",
  "TypeError", "UnboundLocalError", "UnicodeDecodeError", "UnicodeEncodeError", "UnicodeError",
  "UnicodeTranslateError", "UnicodeWarning", "UserWarning", "ValueError", "Warning",
  "ZeroDivisionError"]

/-- The functions that can be named without being in scope. -/
def functionNames : List String := [
  "__build_class__", "__import__", "abs", "aiter", "all", "anext", "any", "ascii", "bin",
  "breakpoint", "callable", "chr", "compile", "delattr", "dir", "divmod", "eval", "exec",
  "format", "getattr", "globals", "hasattr", "hash", "hex", "id", "input", "isinstance",
  "issubclass", "iter", "len", "locals", "max", "min", "next", "oct", "open", "ord", "pow",
  "print", "repr", "round", "setattr", "sorted", "sum", "vars"]

def builtinValue? (name : String) : Option Value :=
  if name = "True" then some (.bool true)
  else if name = "False" then some (.bool false)
  else if name = "None" then some .none
  else if name = "__debug__" then some (.bool true)
  else if name = "__name__" then some (.text "builtins")
  else if name = "EnvironmentError" then some (.builtin (.kind "OSError"))
  else if name = "IOError" then some (.builtin (.kind "OSError"))
  else if name = "Ellipsis" then some (.builtin (.single "ellipsis"))
  else if name = "NotImplemented" then some (.builtin (.single "NotImplementedType"))
  else if classNames.contains name then some (.builtin (.kind name))
  else if functionNames.contains name then some (.builtin (.function name))
  else none

end TypedMarkup.Host

/-!
# Sample formulas

Formulas that use each part of the language, for trying out the stages of
compilation.
-/

namespace NodeFormula.Sample

open String

def catenary : String := intercalate "\n" [
  "ng asinh(x: float) -> y: float \x7b",
  "    out y = log(x + sqrt(1+x*x), #e);",
  "\x7d",
  "",
  "ng catenary(p1: vec3, p2: vec3, a: float) -> pos: vec3 \x7b",
  "x1,y1,z1 = p1; x2,y2,z2 = p2;",
  "temp = (y1-y2)/(2*a*sinh((x1-x2)/(2*a)));",
  "cx = -0.5*(asinh(temp)*2*a - x1-x2);",
  "cy = y1 - a*cosh((x1-cx)/a);",
  "out pos = cy + a*cosh((x-cx)/a);",
  "\x7d",
  "",
  "catenary(\x7b0,0,1\x7d, \x7b1,0.5,2\x7d);",
  ""]

def functions : String := intercalate "\n" [
  "fn rescaled_pos() -> pos: vec3 \x7b",
  "    out pos = (position() - 0.5) * 2;",
  "\x7d",
  "",
  "fn cart_to_polar(x: float, y: float) -> r: float, theta: float \x7b",
  "    out r = sqrt(x*x + y*y);",
  "    out theta = atan2(y, x);",
  "\x7d",
  "",
  "x= 10;",
  "fn test(x: float) -> y: float \x7b",
  "    x = x + 5;",
  "    y = 5*x;",
  "    out y = y**10;",
  "\x7d",
  "",
  "test(x);",
  "// x should still be 10 here.",
  "sin(x);",
  ""]

def keywordArguments : String := intercalate "\n" [
  "res = voronoi2d(scale = 0.1, vector = tex_coord().object, randomness= 0.5);",
  "res.distance * res.position;",
  ""]

def loops : String := intercalate "\n" [
  "// Equivalent to doing 10.sin().sin().sin().sin()",
  "x = 10;",
  "loop 4 \x7b",
  "    x = sin(x);",
  "\x7d",
  "",
  "// Using a value for each iteration.",
  "",
  "loop i= -1 -> 1 \x7b",
  "    loop j = -1 -> 1 \x7b",
  "        x= \x7bi,j\x7d; // Creates a combine XYZ with values \x7bi,j, 0\x7d",
  "    \x7d",
  "\x7d",
  ""]

def multipleOutputs : String := intercalate "\n" [
  "time = time();",
  "time.frame/time.seconds;",
  "x = position().x;",
  ""]

def spacedName : String := intercalate "\n" [
  "ng \"Complex Mult\"(x: vec3, y: vec3) -> z: vec3 \x7b",
  "    a,b = x; c,d = y;",
  "    // (a+bi)(c+di) = ac + adi + bci -bd = ac-bd + (ad + bc)i",
  "    out z = \x7ba*c - b*d , a*d + b*c\x7d;",
  "\x7d",
  "",
  "x = \x7b1, 1\x7d; y = \x7b-1, 1\x7d;",
  "z = n\"Complex Mult\"(x,y);",
  ""]

def precedence : String := intercalate "\n" [
  "5 + -4 * 3 <= 20 and not (6**7 - -2 + 8 == 10 or 9 > 7)",
  ""]

def calculations : String := intercalate "\n" [
  "x = #(pi/4);",
  "y = #(2*10);",
  "z = #e**2;",
  "",
  "w = #(cos(pi/4)*2);",
  ""]

def unterminated : String := intercalate "\n" [
  "y = x + 1",
  "z = 4* y -x",
  ""]

def all : List (String × String) :=
  [("catenary", catenary), ("functions", functions), ("keyword_args", keywordArguments),
   ("loop", loops), ("multiple_outputs", multipleOutputs),
   ("ng_name_with_spaces", spacedName), ("precedence", precedence),
   ("python", calculations), ("variables", unterminated)]

end NodeFormula.Sample

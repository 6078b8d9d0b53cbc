import NodeFormula.Catalog.Basic

/-!
# Aliases for both kinds of trees

A table like that for geometry trees.
-/

namespace NodeFormula.Catalog

def distances : Choice := named "distance" ["chebychev", "euclidean", "manhattan"]

/-- What is found of the cells of a texture, some of it with more sockets. -/
def features (inputs outputs : List Nat) : Choice :=
  routing "feature" [("distance_to_edge", "", [], [0]), ("f1", "", inputs, outputs),
    ("f2", "", inputs, outputs), ("n_sphere_radius", "", [], [4]),
    ("smooth_f1", "", 3 :: inputs, outputs)]

def sharedAliasesBrickToWhite : List (List (String × NodeRecipe)) :=
  [[("brick_texture", whole "TexBrick" 10 2),
    ("checker_texture", whole "TexChecker" 4 2)],
   wholly "clamp" "Clamp" 3 1 [plain "clamp_type" [("min_max", "MINMAX"), ("range", "")]],
   [("colorramp", whole "ValToRGB" 1 2),
    ("combine_xyz", whole "CombineXYZ" 3 1),
    ("float_curve", whole "FloatCurve" 2 1)],
   wholly "gradient_texture" "TexGradient" 1 2 [named "gradient_type" ["diagonal", "easing",
      "linear", "quadratic", "quadratic_sphere", "radial", "spherical"]],
   [("magic_texture", whole "TexMagic" 3 2)],
   varied "map_range" "MapRange" (whole · 5 1) [ ([], [], [plain "interpolation_type" [("linear",
      ""), ("smooth_step", "SMOOTHSTEP"), ("smoother_step", "SMOOTHERSTEP")], routing "data_type"
      [("float", "", [0, 1, 2, 3, 4], [0]), ("vector", "FLOAT_VECTOR", [6, 7, 8, 9, 10], [1])]]),
      ([], [], [plain "interpolation_type" [("stepped_linear", "STEPPED")], routing "data_type"
      [("float", "", [0, 1, 2, 3, 4, 5], [0]), ("vector", "FLOAT_VECTOR", [6, 7, 8, 9, 10, 11],
      [1])]])],
   varied "math" "Math" (whole · 2 1) [([0], [0], [adding "operation" [("absolute", "", []), ("add",
      "", [1]), ("arccosine", "", []), ("arcsine", "", []), ("arctan2", "", [1]), ("arctangent", "",
      []), ("ceil", "", []), ("compare", "", [1, 2]), ("cosine", "", []), ("divide", "", [1]),
      ("exponent", "", []), ("floor", "", []), ("fraction", "FRACT", []), ("greater_than", "", [1]),
      ("hyperbolic_cosine", "COSH", []), ("hyperbolic_sine", "SINH", []), ("hyperbolic_tangent",
      "TANH", []), ("inverse_square_root", "INVERSE_SQRT", []), ("less_than", "", [1]),
      ("logarithm", "", [1]), ("maximum", "", [1]), ("minimum", "", [1]), ("modulo", "", [1]),
      ("multiply", "", [1]), ("multiply_add", "", [1, 2]), ("ping_pong", "PINGPONG", [1]), ("power",
      "", [1]), ("round", "", []), ("sign", "", []), ("sine", "", []), ("smooth_maximum",
      "SMOOTH_MAX", [1, 2]), ("smooth_minimum", "SMOOTH_MIN", [1, 2]), ("snap", "", [1]),
      ("square_root", "SQRT", []), ("subtract", "", [1]), ("tangent", "", []), ("to_degrees",
      "DEGREES", []), ("to_radians", "RADIANS", []), ("truncate", "TRUNC", []), ("wrap", "", [1,
      2])]])],
   varied "mix" "Mix" (recipe · [0, 2, 3] [0] []) [ ([0], [], [routing "data_type" [("color",
      "RGBA", [6, 7], [2]), ("float", "", [2, 3], [0])], named "factor_mode" ["non_uniform",
      "uniform"], blendTypes]), ([4, 5], [1], [named "data_type" ["vector"], adding "factor_mode"
      [("non_uniform", "", [1]), ("uniform", "", [0])], blendTypes])],
   varied "musgrave_texture" "TexMusgrave" (recipe · [0, 2, 3, 4, 5] [0] []) [([2, 3, 4, 5], [0],
      [adding "musgrave_dimensions" [("1d", "", [1]), ("2d", "", [0]), ("3d", "", [0]), ("4d", "",
      [0, 1])], adding "musgrave_type" [("fbm", "", []), ("hetero_terrain", "", [6]),
      ("hybrid_multifractal", "", [6, 7]), ("multifractal", "", []), ("ridged_multifractal", "", [6,
      7])]])],
   varied "noise_texture" "TexNoise" (recipe · [0, 2, 3, 4, 5] [0, 1] []) [([2, 3, 4, 5], [0, 1],
      [adding "noise_dimensions" [("1d", "", [1]), ("2d", "", [0]), ("3d", "", [0]), ("4d", "", [0,
      1])]])],
   [("rgb_curves", whole "RGBCurve" 2 1),
    ("separate_xyz", whole "SeparateXYZ" 1 3),
    ("value", whole "Value" 0 1),
    ("vector_curves", whole "VectorCurve" 2 1)],
   varied "vector_math" "VectorMath" (whole · 2 1) [([0], [], [routing "operation" [("absolute", "",
      [], [0]), ("add", "", [1], [0]), ("ceil", "", [], [0]), ("cosine", "", [], [0]),
      ("cross_product", "", [1], [0]), ("distance", "", [1], [1]), ("divide", "", [1], [0]),
      ("dot_product", "", [1], [1]), ("faceforward", "", [1, 2], [0]), ("floor", "", [], [0]),
      ("fraction", "", [], [0]), ("length", "", [], [1]), ("maximum", "", [1], [0]), ("minimum", "",
      [1], [0]), ("modulo", "", [1], [0]), ("multiply", "", [1], [0]), ("multiply_add", "", [1, 2],
      [0]), ("normalize", "", [], [0]), ("project", "", [1], [0]), ("reflect", "", [1], [0]),
      ("refract", "", [1, 3], [0]), ("scale", "", [3], [0]), ("sine", "", [], [0]), ("snap", "",
      [1], [0]), ("subtract", "", [1], [0]), ("tangent", "", [], [0]), ("wrap", "", [1, 2],
      [0])]])],
   varied "vector_rotate" "VectorRotate" (whole · 4 1) [([0, 1], [0], [adding "rotation_type"
      [("axis_angle", "", [2, 3]), ("euler", "EULER_XYZ", [4]), ("x_axis", "", [3]), ("y_axis", "",
      [3]), ("z_axis", "", [3])]])],
   varied "voronoi_texture" "TexVoronoi" (recipe · [0, 2, 5] [0, 1, 2] []) [ ([1, 2, 5], [],
      [named "voronoi_dimensions" ["1d"], named "distance" ["chebychev", "euclidean", "manhattan",
      "minkowski"], features [] [0, 1, 3]]), ([0, 2, 5], [], [named "voronoi_dimensions" ["2d"],
      distances, features [] [0, 1, 2]]), ([0, 2, 5], [], [named "voronoi_dimensions" ["2d"],
      named "distance" ["minkowski"], features [4] [0, 1, 2]]), ([0, 2, 5], [],
      [named "voronoi_dimensions" ["3d"], distances, features [] [0, 1, 2]]), ([0, 2, 5], [],
      [named "voronoi_dimensions" ["3d"], named "distance" ["minkowski"], features [4] [0, 1, 2]]),
      ([0, 1, 2, 5], [], [named "voronoi_dimensions" ["4d"], distances, features [] [0, 1, 2, 3]]),
      ([0, 1, 2, 5], [], [named "voronoi_dimensions" ["4d"], named "distance" ["minkowski"],
      features [4] [0, 1, 2, 3]])],
   wholly "wave_texture" "TexWave" 7 2 [named "wave_type" ["bands", "rings"],
      named "bands_direction" ["diagonal", "x", "y", "z"], named "rings_direction" ["spherical",
      "x", "y", "z"], plain "wave_profile" [("saw", ""), ("sine", "SIN"), ("triangle", "TRI")]],
   varied "white_noise_texture" "TexWhiteNoise" (whole · 1 2) [([], [0, 1],
      [adding "noise_dimensions" [("1d", "", [1]), ("2d", "", [0]), ("3d", "", [0]), ("4d", "", [0,
      1])]])]]

def sharedAliases : List (String × NodeRecipe) := ofShader sharedAliasesBrickToWhite

end NodeFormula.Catalog
